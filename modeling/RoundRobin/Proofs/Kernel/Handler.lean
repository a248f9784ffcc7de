import RoundRobin.Proofs.Kernel.Questions
import RoundRobin.Proofs.Kernel.Returns

/-!
# The whole of a timer interrupt

What the handler does to the core, and what it leaves alone, as one equation between the kernel before
it and the kernel after it. The same for a yield, and for an interrupt, which is the first or both. The
history and what the client keeps are the only parts that such an equation leaves open.
-/

namespace RoundRobin

open Act

variable {C : Client} {hooks : Hooks C} {k k' k₁ : Kernel C}

/-! ## The question to the process layer -/

/-- What the process layer says of a thread: whether it runs a user program. -/
def Hooks.answers (hooks : Hooks C) (id : ThreadId) (k : Kernel C) : Bool :=
  match hooks.callIsUser id k with
  | .ok user _ => user
  | .error _ _ => false

/-- The handler up to its question to the process layer: the clock has advanced, and those whose tick
has come are ready. -/
def Kernel.enterHandler : Act C (ThreadId × Bool × Nat) := do
  setInInterrupt true
  wakeSleepers (← advanceClock)

namespace Kernel

/-- What the process layer says, inside the handler of an interrupt that comes in `k`, of the thread
that runs in `k`. -/
def answer (hooks : Hooks C) (k : Kernel C) : Bool :=
  match k.tables.current, enterHandler k with
  | some id, .ok _ k₁ => hooks.answers id k₁
  | some _, .error _ _ => false
  | none, _ => false

/-- Who is charged for an interrupt that comes in `k`: the kind of the thread that runs in `k`. -/
def kindAt (hooks : Hooks C) (k : Kernel C) : TickKind :=
  if k.tables.idleRuns then .idle else if k.answer hooks then .user else .kernel

/-- The second kernel differs from the first one at most in its history and in what the client keeps. -/
def Agrees (k k' : Kernel C) : Prop := ∃ history client, k' = { k with history, client }

/-! ## The handler -/

/-- A hook that only asks leaves the kernel as it is. -/
theorem agrees_of_call {α : Type} {point : HookPoint} {id : ThreadId} {absent a : α} {act : Act C α}
    (hask : act.OnlyAsks) (h : Hooks.call point id absent act k = .ok a k') : k.Agrees k' := by
  unfold Hooks.call at h
  rw [get_bind] at h
  split at h
  · rw [level_bind, record_bind] at h
    obtain ⟨reports, client, _, rfl⟩ := hask _ _ _ h
    exact ⟨_, client, rfl⟩
  · rw [(pure_eq_ok_iff.mp h).2]
    exact ⟨k.history, k.client, rfl⟩

theorem agrees_of_tickKind {id : ThreadId} {idle : Bool} {kind : TickKind} (hq : hooks.QueryOnly)
    (h : tickKind hooks id idle k = .ok kind k') :
    kind = Tables.kindOf idle (hooks.answers id k) ∧ k.Agrees k' := by
  unfold tickKind at h
  split at h
  · next hidle =>
    obtain ⟨rfl, rfl⟩ := pure_eq_ok_iff.mp h
    exact ⟨by rw [Tables.kindOf, if_pos hidle], k'.history, k'.client, rfl⟩
  · next hidle =>
    rw [bind_eq_ok_iff] at h
    obtain ⟨user, k₁, hcall, h⟩ := h
    have hanswer : hooks.answers id k = user := by rw [Hooks.answers, hcall]
    have hagrees := agrees_of_call (hq.isUser id) hcall
    rw [hanswer, Tables.kindOf, if_neg hidle]
    cases user with
    | true => obtain ⟨rfl, rfl⟩ := pure_eq_ok_iff.mp h; exact ⟨rfl, hagrees⟩
    | false => obtain ⟨rfl, rfl⟩ := pure_eq_ok_iff.mp h; exact ⟨rfl, hagrees⟩

/-- The sections of the handler make a tick of the tables. The process layer is asked about the
interrupted thread, in the kernel that the first section left. -/
theorem agrees_of_tickThreads {now : Nat} {u : Unit} (hq : hooks.QueryOnly)
    (hup : k.initialized = true) (h : tickThreads hooks now k = .ok u k') :
    ∃ id idle woken k₁, wakeSleepers now k = .ok (id, idle, woken) k₁ ∧
      k.tables.current = some id ∧ ∃ asks t,
        k.tables.tick (hooks.answers id k₁) now k.config.timeSlice = .ok (asks, t) ∧
        Agrees { k with tables := t, yieldOnReturn := k.yieldOnReturn || asks } k' := by
  unfold tickThreads at h
  rw [get_bind, if_pos hup, bind_eq_ok_iff] at h
  obtain ⟨⟨id, idle, woken⟩, k₁, hwake, h⟩ := h
  obtain ⟨v, hv, hc, rfl, hk₁⟩ := eq_of_wakeSleepers hwake
  have hcurrent : k.tables.current = some id := by
    have hsame : v.current = k.tables.current := by rw [Tables.rest_of_wakeDue hv]
    exact hsame.symm.trans (Tables.currentId_eq_ok_iff.mp hc)
  refine ⟨id, v.isIdle id, woken, k₁, hwake, hcurrent, ?_⟩
  dsimp only at h
  rw [bind_eq_ok_iff] at h
  obtain ⟨kind, k₂, hkind, h⟩ := h
  obtain ⟨rfl, history, client, rfl⟩ := agrees_of_tickKind hq hkind
  rw [get_bind, bind_eq_ok_iff] at h
  obtain ⟨expired, k₃, hcharge, h⟩ := h
  obtain ⟨t, ht, rfl⟩ := update_eq_ok_iff.mp hcharge
  have hfields : k₁.config = k.config ∧ k₁.tables = v := by
    rw [hk₁]
    exact ⟨rfl, rfl⟩
  dsimp only at ht
  rw [hfields.1, hfields.2] at ht
  have htick : k.tables.tick (hooks.answers id k₁) now k.config.timeSlice
      = .ok (expired || v.isIdle id && decide (0 < woken), t) :=
    Fault.bind_eq_ok_iff.mpr ⟨_, hv, Fault.bind_eq_ok_iff.mpr
      ⟨id, hc, Fault.bind_eq_ok_iff.mpr ⟨_, ht, rfl⟩⟩⟩
  refine ⟨_, t, htick, ?_⟩
  -- the yield is asked for where the tick asks for one
  rw [hk₁] at h
  cases hasks : expired || v.isIdle id && decide (0 < woken) with
  | true =>
    rw [if_pos (by simpa using hasks), requestYield, modify_eq_ok_iff] at h
    rw [h, Bool.or_true]
    exact ⟨_, _, rfl⟩
  | false =>
    rw [if_neg (by simpa using hasks)] at h
    rw [(pure_eq_ok_iff.mp h).2, Bool.or_false]
    exact ⟨_, _, rfl⟩

/-- The handler, on an initialized kernel: one tick later, and a tick of the tables. -/
theorem agrees_of_timerInterrupt {u : Unit} (hq : hooks.QueryOnly) (hup : k.initialized = true)
    (h : timerInterrupt hooks k = .ok u k') : ∃ asks t,
      k.tables.tick (k.answer hooks) (k.clock.ticks + 1) k.config.timeSlice = .ok (asks, t) ∧
      Agrees { k with
        clock := { k.clock with ticks := k.clock.ticks + 1 }
        tables := t
        inInterrupt := false
        yieldOnReturn := k.yieldOnReturn || asks } k' := by
  unfold timerInterrupt at h
  obtain ⟨_, h⟩ := requireMasked_bind_eq_ok_iff.mp h
  obtain ⟨_, h⟩ := requireThreadContext_bind_eq_ok_iff.mp h
  rw [setInInterrupt, modify_bind, bind_eq_ok_iff] at h
  obtain ⟨now, k₁, hadvance, h⟩ := h
  obtain ⟨_, rfl, hk₁⟩ := eq_of_advanceClock hadvance
  rw [bind_eq_ok_iff] at h
  obtain ⟨_, k₂, htick, h⟩ := h
  obtain ⟨id, idle, woken, k₃, hwake, hc, asks, t, ht, history, client, rfl⟩ :=
    agrees_of_tickThreads hq (by rw [hk₁]; exact hup) htick
  rw [hk₁] at hc ht
  have hanswer : k.answer hooks = hooks.answers id k₃ := by
    have hc : k.tables.current = some id := hc
    have henter : enterHandler k = .ok (id, idle, woken) k₃ := by
      unfold enterHandler
      rw [setInInterrupt, modify_bind, bind_of_ok hadvance]
      exact hwake
    unfold answer
    rw [hc, henter]
  rw [setInInterrupt, modify_eq_ok_iff] at h
  refine ⟨asks, t, hanswer ▸ ht, history, client, ?_⟩
  rw [h, hk₁]

/-! ## A yield -/

/-- How often the processor has switched after a decision. -/
def switchesAfter (d : Dispatch) (k : Kernel C) : Nat :=
  if d.previous = d.next then k.cpu.switches else k.cpu.switches + 1

theorem agrees_of_giveUpCpu {status : Status} {u : Unit} (hq : hooks.QueryOnly)
    (h : giveUpCpu hooks status k = .ok u k') : ∃ d t,
      k.tables.giveUp status = .ok (d, t) ∧
      Agrees { k with tables := t, cpu := { k.cpu with switches := k.switchesAfter d } } k' := by
  unfold giveUpCpu at h
  obtain ⟨_, h⟩ := requireMasked_bind_eq_ok_iff.mp h
  rw [bind_eq_ok_iff] at h
  obtain ⟨d, k₁, hu, h⟩ := h
  obtain ⟨t, ht, rfl⟩ := update_eq_ok_iff.mp hu
  rw [level_bind, record_bind, bind_eq_ok_iff] at h
  obtain ⟨_, k₂, hcall, h⟩ := h
  obtain ⟨history, client, rfl⟩ := agrees_of_call (hq.activate d.next) hcall
  refine ⟨d, t, ht, ?_⟩
  unfold switchesAfter
  split at h
  · next hne =>
    obtain ⟨_, _, rfl⟩ := switchContext_eq_ok_iff.mp h
    rw [if_neg hne]
    exact ⟨_, _, rfl⟩
  · next heq =>
    rw [(pure_eq_ok_iff.mp h).2, if_pos (Classical.not_not.mp heq)]
    exact ⟨_, _, rfl⟩

/-- The processor is set back to the level that it had, with its switches as they are. -/
theorem setLevel_switches (cpu : FlagCpu) (n : Nat) :
    Maskable.setLevel (Maskable.level cpu) { Maskable.setLevel .off cpu with switches := n }
      = { cpu with switches := n } := by
  obtain ⟨delivering, switches⟩ := cpu
  cases delivering <;> rfl

/-- A yield changes the tables and counts the switch, if there is one. -/
theorem agrees_of_yieldNow {u : Unit} (hq : hooks.QueryOnly) (h : yieldNow hooks k = .ok u k') :
    ∃ d t, k.tables.leave .yield = .ok (d, t) ∧
      Agrees { k with tables := t, cpu := { k.cpu with switches := k.switchesAfter d } } k' := by
  unfold yieldNow at h
  obtain ⟨_, h⟩ := requireThreadContext_bind_eq_ok_iff.mp h
  obtain ⟨k₁, hsection, rfl⟩ := masked_eq_ok_iff.mp h
  rw [bind_eq_ok_iff] at hsection
  obtain ⟨_, k₂, hmark, hgive⟩ := hsection
  obtain ⟨v, hv, rfl⟩ := change_eq_ok_iff.mp hmark
  obtain ⟨d, t, ht, history, client, rfl⟩ := agrees_of_giveUpCpu hq hgive
  refine ⟨d, t, Tables.leave_eq_ok_iff.mpr ⟨v, hv, ht⟩, history, client, ?_⟩
  dsimp only
  rw [setLevel_switches]
  rfl

/-! ## The interrupt -/

/-- The kernel after an interrupt, but for its history and what the client keeps. -/
def interrupted (t : Tables C.Body) (switches : Nat) (k : Kernel C) : Kernel C :=
  { k with
    clock := { k.clock with ticks := k.clock.ticks + 1 }
    tables := t
    cpu := { k.cpu with switches }
    inInterrupt := false
    yieldOnReturn := false }

/-- What a whole interrupt does on an initialized kernel: a tick, which asks for no yield, or a tick and
the yield that it asks for. -/
theorem agrees_of_onTimerInterrupt {u : Unit} (hq : hooks.QueryOnly) (hup : k.initialized = true)
    (hcalm : k.yieldOnReturn = false) (h : onTimerInterrupt hooks k = .ok u k') :
    ∃ asks t, k.tables.tick (k.answer hooks) (k.clock.ticks + 1) k.config.timeSlice = .ok (asks, t) ∧
      (asks = false ∧ Agrees (k.interrupted t k.cpu.switches) k' ∨
        asks = true ∧ ∃ d t', t.leave .yield = .ok (d, t') ∧
          Agrees (k.interrupted t' (k.switchesAfter d)) k') := by
  unfold onTimerInterrupt at h
  rw [bind_eq_ok_iff] at h
  obtain ⟨_, k₁, htimer, h⟩ := h
  obtain ⟨asks, t, ht, history, client, rfl⟩ := agrees_of_timerInterrupt hq hup htimer
  refine ⟨asks, t, ht, ?_⟩
  rw [get_bind, hcalm, Bool.false_or] at h
  cases asks with
  | true =>
    rw [if_pos rfl, modify_bind] at h
    obtain ⟨d, t', hleave, history', client', rfl⟩ := agrees_of_yieldNow hq h
    exact .inr ⟨rfl, d, t', hleave, history', client', rfl⟩
  | false =>
    rw [if_neg nofun] at h
    rw [(pure_eq_ok_iff.mp h).2]
    exact .inl ⟨rfl, history, client, rfl⟩

end Kernel
end RoundRobin
