import RoundRobin.Proofs.Kernel.Able

/-!
# Operations of an able kernel come back

The converse of what is said of effects: there an operation that has come back is taken apart, and
here one that was called in the right context is shown to come back. The process layer is outside; it
is `Prompt` when its hooks come back as long as the kernel answers what they ask.
-/

namespace RoundRobin

variable {C : Client} {hooks : Hooks C} {k k' : Kernel C}

/-! ## Outcomes -/

namespace Act

variable {α β : Type} {act : Act C α} {f : α → Act C β} {a : α} {e : Fault}

/-- The operation comes back. -/
def Returns (act : Act C α) (k : Kernel C) : Prop := ∃ a k', act k = .ok a k'

/-- The operation stops the machine, with this fault. -/
def Stops (act : Act C α) (k : Kernel C) (e : Fault) : Prop := ∃ k', act k = .error e k'

/-- The operation stops the machine with a fault, or it comes back when there is none. -/
def Ends (act : Act C α) (k : Kernel C) : Option Fault → Prop
  | none => act.Returns k
  | some e => act.Stops k e

theorem returns_bind (h : act k = .ok a k') : (act >>= f).Returns k ↔ (f a).Returns k' := by
  unfold Returns
  rw [bind_of_ok h]

theorem ends_bind {r : Option Fault} (h : act k = .ok a k') :
    (act >>= f).Ends k r ↔ (f a).Ends k' r := by
  cases r with
  | none => exact returns_bind h
  | some e =>
    show (act >>= f).Stops k e ↔ (f a).Stops k' e
    unfold Stops
    rw [bind_of_ok h]

theorem ends_get_bind {g : Kernel C → Act C β} {r : Option Fault} :
    ((get : Act C (Kernel C)) >>= g).Ends k r ↔ (g k).Ends k r :=
  ends_bind (a := k) rfl

theorem Returns.bind (h : act.Returns k) (hf : ∀ a k', act k = .ok a k' → (f a).Returns k') :
    (act >>= f).Returns k := by
  obtain ⟨a, k', hact⟩ := h
  exact (returns_bind hact).mpr (hf a k' hact)

theorem Stops.bind (h : act.Stops k e) : (act >>= f).Stops k e := by
  obtain ⟨k', hact⟩ := h
  exact ⟨k', bind_of_error hact⟩

theorem returns_pure (a : α) (k : Kernel C) : (pure a : Act C α).Returns k := ⟨a, k, rfl⟩

/-- The fault is the one that was foreseen. -/
theorem Ends.fault_eq {r : Option Fault} (h : act.Ends k r) (hstop : act k = .error e k') :
    r = some e := by
  cases r with
  | none =>
    obtain ⟨a, k₁, hok⟩ := h
    rw [hstop] at hok
    cases hok
  | some f =>
    obtain ⟨k₁, hstop'⟩ := h
    rw [hstop] at hstop'
    cases hstop'
    rfl

/-- A result that is only put into another form. -/
theorem Ends.bind_pure {r : Option Fault} (h : act.Ends k r) (g : α → β) :
    (act >>= fun a => pure (g a)).Ends k r := by
  cases r with
  | none => exact Returns.bind h fun a k' _ => returns_pure (g a) k'
  | some e => exact Stops.bind h

theorem Ends.masked {r : Option Fault}
    (h : act.Ends { k with cpu := Maskable.setLevel .off k.cpu } r) : (masked act).Ends k r := by
  cases r with
  | none =>
    obtain ⟨a, k', hact⟩ := h
    exact ⟨a, _, masked_of_ok hact⟩
  | some e =>
    obtain ⟨k', hact⟩ := h
    exact ⟨k', masked_of_error hact⟩

theorem Returns.masked (h : act.Returns { k with cpu := Maskable.setLevel .off k.cpu }) :
    (masked act).Returns k :=
  Ends.masked (r := none) h

theorem change_of_ok {g : Tables C.Body → Except Fault (Tables C.Body)} {t : Tables C.Body}
    (h : g k.tables = .ok t) : change g k
      = .ok () { k with tables := t, history := .updated (Maskable.level k.cpu) :: k.history } :=
  change_eq_ok_iff.mpr ⟨t, h, rfl⟩

theorem change_stops {g : Tables C.Body → Except Fault (Tables C.Body)}
    (h : g k.tables = .error e) : (change g).Stops k e := by
  refine ⟨k, update_of_error ?_⟩
  rw [h]
  rfl

/-- A processor with interrupts masked can switch, until its count is at the last word. -/
theorem switchContext_returns (hoff : Maskable.level k.cpu = .off) (hroom : k.cpu.switches < Word.top) :
    (switchContext : Act C Unit).Returns k := by
  have hdelivering : k.cpu.delivering = false := by
    cases hon : k.cpu.delivering with
    | false => rfl
    | true =>
      have hlevel : Maskable.level k.cpu = .on := by
        show Level.ofBool k.cpu.delivering = .on
        rw [hon]
        rfl
      rw [hlevel] at hoff
      cases hoff
  exact ⟨(), _, switchContext_eq_ok_iff.mpr ⟨hdelivering, Nat.ne_of_lt hroom, rfl⟩⟩

/-! ## Checks -/

/-- Outside the handler the check passes, and what follows it decides. -/
theorem requireThreadContext_ends {r : Option Fault} {f : Unit → Act C α}
    (houtside : k.inInterrupt = false) (h : (f ()).Ends k r) :
    (requireThreadContext e >>= f).Ends k r :=
  (ends_bind (requireThreadContext_eq_ok_iff.mpr ⟨houtside, rfl⟩)).mpr h

/-- With interrupts on the check refuses, and otherwise what follows it decides. -/
theorem requireMasked_ends {r : Option Fault} {f : Unit → Act C α}
    (h : Maskable.level k.cpu = .off → (f ()).Ends k r) :
    (requireMasked e >>= f).Ends k (if Maskable.level k.cpu = .on then some e else r) := by
  have hcheck := requireMasked_apply e k
  split
  · next hon =>
    rw [if_pos hon] at hcheck
    exact Stops.bind ⟨k, hcheck⟩
  · next hoff =>
    rw [if_neg hoff] at hcheck
    refine (ends_bind hcheck).mpr (h ?_)
    cases hlevel : Maskable.level k.cpu with
    | on => exact absurd hlevel hoff
    | off => rfl

/-- With interrupts masked the check refuses, and otherwise what follows it decides. -/
theorem requireUnmasked_ends {r : Option Fault} {f : Unit → Act C α}
    (h : Maskable.level k.cpu ≠ .off → (f ()).Ends k r) :
    (requireUnmasked e >>= f).Ends k (if Maskable.level k.cpu = .off then some e else r) := by
  have hcheck := requireUnmasked_apply e k
  split
  · next hoff =>
    rw [if_pos hoff] at hcheck
    exact Stops.bind ⟨k, hcheck⟩
  · next hon =>
    rw [if_neg hon] at hcheck
    exact (ends_bind hcheck).mpr (h hon)

end Act

open Act

/-! ## Hooks that come back -/

/-- Every question to the kernel has an answer. -/
structure Kernel.Answering (k : Kernel C) : Prop where
  current : ∃ h, k.currentHandle = .ok h
  ticks : ∃ n, k.tables.stats.total = .ok n
  counts : ∃ n, k.tables.threads.counts.total = .ok n

/-- The hooks of a process layer come back as long as the kernel answers what they ask. -/
structure Hooks.Prompt (hooks : Hooks C) : Prop where
  activate : ∀ id k, k.Answering → (hooks.activate id).Returns k
  exit : ∀ id k, k.Answering → (hooks.exit id).Returns k
  isUser : ∀ id k, k.Answering → (hooks.isUser id).Returns k

theorem Hooks.prompt_plain : (plain : Hooks C).Prompt :=
  ⟨fun _ k _ => returns_pure () k, fun _ k _ => returns_pure () k, fun _ k _ => returns_pure false k⟩

/-- An initialized kernel with sound tables answers. -/
theorem Kernel.answering (hup : k.initialized = true) (hsound : k.tables.Sound)
    (hhoused : k.tables.Housed)
    (hstats : k.tables.stats.idle + k.tables.stats.kernel + k.tables.stats.user ≤ Word.top) :
    k.Answering := by
  constructor
  · obtain ⟨c, th, hc, hth, hrun⟩ := hsound.current_runs
    refine ⟨th.handle, ?_⟩
    have hcurrent : k.currentThread = .ok th :=
      Fault.bind_eq_ok_iff.mpr ⟨c, Tables.currentId_eq_ok_iff.mpr hc, Tables.thread_eq_ok_iff.mpr hth⟩
    unfold currentHandle
    rw [if_neg (by rw [hup]; exact nofun), Fault.bind_eq_ok_iff]
    refine ⟨th, hcurrent, ?_⟩
    rw [if_neg (by rw [hhoused.intact c th hth]; exact nofun), if_neg (by simp [hrun])]
    rfl
  · exact ⟨_, Fault.bind_eq_ok_iff.mpr
      ⟨_, checkedAdd_eq_ok (by omega), checkedAdd_eq_ok (by omega)⟩⟩
  · have hinUse := hhoused.inUse
    have hbounded := hhoused.bounded
    have hfits := hhoused.fits
    exact ⟨_, ThreadTable.total_counts (by split at hinUse <;> omega)⟩

/-- The history and what the client keeps have no part in the answers. -/
theorem Kernel.Answering.later (h : k.Answering) (history : List (Event C.Note)) :
    ({ k with history } : Kernel C).Answering :=
  ⟨h.current, h.ticks, h.counts⟩

theorem Hooks.call_returns {α : Type} {point : HookPoint} {id : ThreadId} {absent : α}
    {act : Act C α} (hact : ∀ k, k.Answering → act.Returns k) (hk : k.Answering) :
    (call point id absent act).Returns k := by
  unfold call Returns
  rw [get_bind]
  split
  · rw [level_bind, record_bind]
    exact hact _ (hk.later _)
  · exact returns_pure absent k

/-- A hook that only asks leaves the processor alone. -/
theorem Hooks.cpu_of_call {α : Type} {point : HookPoint} {id : ThreadId} {absent a : α}
    {act : Act C α} (hask : act.OnlyAsks) (h : call point id absent act k = .ok a k') :
    k'.cpu = k.cpu := by
  unfold call at h
  rw [get_bind] at h
  split at h
  · rw [level_bind, record_bind] at h
    obtain ⟨_, _, _, rfl⟩ := hask _ _ _ h
    rfl
  · rw [(pure_eq_ok_iff.mp h).2]

namespace Kernel

/-! ## Giving up the processor -/

theorem answering_of_readable (h : k.tables.Readable) (hup : k.initialized = true) : k.Answering :=
  answering hup h.sound h.housed h.stats

/-- A decision that the tables allow is carried out. -/
theorem giveUpCpu_returns {status : Status} {d : Dispatch} {t : Tables C.Body}
    (hq : hooks.QueryOnly) (hp : hooks.Prompt) (hoff : Maskable.level k.cpu = .off)
    (hup : k.initialized = true) (hroom : d.previous ≠ d.next → k.cpu.switches < Word.top)
    (hg : k.tables.giveUp status = .ok (d, t)) (ht : t.Readable) :
    (giveUpCpu hooks status).Returns k := by
  have hmasked : requireMasked .schedulingUnmasked k = .ok () k :=
    requireMasked_eq_ok_iff.mpr ⟨hoff, rfl⟩
  unfold giveUpCpu
  refine (returns_bind hmasked).mpr ((returns_bind (update_of_ok hg)).mpr ?_)
  rw [Returns, level_bind, record_bind]
  -- the hook is called with the decision made, and before the processor goes over
  refine Returns.bind (Hooks.call_returns (hp.activate d.next) ?_) fun _ k₁ hcall => ?_
  · exact answering_of_readable ht hup
  · split
    · next hne =>
      have hcpu := Hooks.cpu_of_call (hq.activate d.next) hcall
      exact switchContext_returns (by rw [hcpu]; exact hoff) (by rw [hcpu]; exact hroom hne)
    · exact returns_pure () k₁

/-- An able kernel makes every decision, but does not let the idle thread sleep. -/
theorem leave_of_able (way : Way) (h : k.core.Able)
    (hway : ∀ w, way = .sleep w → k.tables.idleRuns = false) :
    ∃ d t, k.tables.leave way = .ok (d, t) ∧ t.Readable := by
  obtain ⟨d, t, hl⟩ := h.readable.sound.leave_complete h.readable.housed h.attended h.idle h.counted
    hway
  exact ⟨d, t, hl, h.readable.leave hl⟩

/-- A marked thread leaves, if the tables allow it. -/
theorem markedSection_of_leave {way : Way} {d : Dispatch} {t : Tables C.Body} (hq : hooks.QueryOnly)
    (hp : hooks.Prompt) (h : k.core.Upright) (hroom : d.previous ≠ d.next → k.cpu.switches < Word.top)
    (hl : k.tables.leave way = .ok (d, t)) :
    (masked (do change (Tables.mark way); giveUpCpu hooks way.status)).Returns k := by
  obtain ⟨u, hu, hg⟩ := Tables.leave_eq_ok_iff.mp hl
  have hmark := change_of_ok (k := { k with cpu := Maskable.setLevel .off k.cpu }) hu
  refine Returns.masked ((returns_bind hmark).mpr ?_)
  exact giveUpCpu_returns hq hp (FlagCpu.level_setLevel .off k.cpu) h.up hroom hg (h.readable.leave hl)

theorem yieldNow_returns (hq : hooks.QueryOnly) (hp : hooks.Prompt) (h : k.core.Upright)
    (hroom : k.core.CanSwitch) : (yieldNow hooks).Returns k := by
  obtain ⟨c, _, hc, _⟩ := h.readable.sound.current_runs
  obtain ⟨d, t, hl⟩ := h.readable.sound.yield_complete h.readable.housed hc fun hne =>
    (hroom c hc hne).1
  have hparting := Tables.parting_of_leave hl
  have hprevious : c = d.previous := Option.some.inj (hc.symm.trans hparting.previous)
  unfold yieldNow
  apply requireThreadContext_ends (r := none) h.outside
  refine markedSection_of_leave hq hp h (fun hne => ?_) hl
  refine (hroom c hc ?_).2
  rw [hprevious]
  exact fun e => hne (Option.some.inj (e.symm.trans hparting.next))

/-- A thread blocks, unless interrupts are on. -/
theorem block_ends (hq : hooks.QueryOnly) (hp : hooks.Prompt) (h : k.core.Able) :
    (block hooks).Ends k
      (if Maskable.level k.cpu = .on then some .blockUnmasked else none) := by
  obtain ⟨d, t, hl, ht⟩ := leave_of_able .block h nofun
  obtain ⟨u, hu, hg⟩ := Tables.leave_eq_ok_iff.mp hl
  cases hu
  unfold block
  apply requireThreadContext_ends h.outside
  apply requireMasked_ends
  intro hoff
  exact giveUpCpu_returns hq hp hoff h.up (fun _ => h.carriedOut) hg ht

theorem exit_returns (hq : hooks.QueryOnly) (hp : hooks.Prompt) (h : k.core.Able) :
    (exit hooks).Returns k := by
  obtain ⟨d, t, hl, ht⟩ := leave_of_able .exit h nofun
  obtain ⟨u, hu, hg⟩ := Tables.leave_eq_ok_iff.mp hl
  cases hu
  obtain ⟨id, _, hid, _⟩ := h.readable.sound.current_runs
  have hread : inspect Tables.currentId k = .ok id k :=
    inspect_eq_ok_iff.mpr ⟨Tables.currentId_eq_ok_iff.mpr hid, rfl⟩
  unfold exit
  apply requireThreadContext_ends (r := none) h.outside
  refine (returns_bind hread).mpr ?_
  rw [Returns, log_bind]
  -- the process layer hears of the exit while the thread still runs
  refine Returns.bind (Hooks.call_returns (hp.exit id) ?_) fun _ k₁ hcall => ?_
  · exact (answering_of_readable h.readable h.up).later _
  · have hcore : k₁.core = k.core := (core_of_call (hq.exit id) hcall).trans (core_record rfl rfl _)
    rw [Returns, setLevel_bind]
    have hg₁ : k₁.tables.giveUp .dying = .ok (d, t) := by
      rw [tables_of_core hcore]
      exact hg
    have hup₁ : k₁.initialized = true := (congrArg Core.initialized hcore).trans h.up
    have hroom₁ : k₁.cpu.switches < Word.top :=
      Nat.lt_of_le_of_lt (Nat.le_of_eq (congrArg Core.switches hcore)) h.carriedOut
    exact giveUpCpu_returns hq hp (FlagCpu.level_setLevel .off k₁.cpu) hup₁ (fun _ => hroom₁) hg₁ ht

/-- A thread sleeps, unless it is the idle thread. -/
theorem sleepUntil_ends {w : Nat} (hq : hooks.QueryOnly) (hp : hooks.Prompt) (h : k.core.Able) :
    (sleepUntil hooks w).Ends k (if k.tables.idleRuns then some .idleSleep else none) := by
  unfold sleepUntil
  apply requireThreadContext_ends h.outside
  by_cases hidle : k.tables.idleRuns = true
  · rw [if_pos hidle]
    obtain ⟨c, hc⟩ : ∃ c, k.tables.current = some c := by
      obtain ⟨c, _, hc, _⟩ := h.readable.sound.current_runs
      exact ⟨c, hc⟩
    rw [Tables.idleRuns_eq hc] at hidle
    have hrefused : k.tables.fallAsleep w = .error .idleSleep := by
      unfold Tables.fallAsleep
      rw [show k.tables.currentId = .ok c from Tables.currentId_eq_ok_iff.mpr hc]
      exact if_pos hidle
    apply Ends.masked
    exact Stops.bind (change_stops hrefused)
  · rw [if_neg hidle]
    obtain ⟨d, t, hl, _⟩ := leave_of_able (.sleep w) h fun _ _ => by simpa using hidle
    exact markedSection_of_leave hq hp h.toUpright (fun _ => h.carriedOut) hl

/-! ## Making threads, and making them ready -/

theorem unblock_ends (h : k.core.Able) (id : ThreadId) :
    (unblock id).Ends k (k.tables.unblockRefusal id) := by
  refine Ends.masked ?_
  cases hrefusal : k.tables.unblockRefusal id with
  | none =>
    have hok := Tables.unblock_of_no_refusal h.readable.sound h.readable.housed hrefusal
    exact ⟨_, _, change_of_ok hok⟩
  | some e => exact change_stops (Tables.unblock_of_refusal h.readable.housed hrefusal)

theorem takePage_returns (k : Kernel C) : (takePage : Act C (Option Page)).Returns k := by
  refine Returns.masked ?_
  rw [Returns, get_bind]
  dsimp only
  cases k.tables.pool.allocate with
  | none => exact returns_pure none _
  | some r => exact Returns.bind ⟨_, _, change_of_ok rfl⟩ fun _ k₁ _ => returns_pure (some r.1) k₁

theorem spawn_returns (name : String) (priority : Nat) (entry : Entry C.Body) (k : Kernel C) :
    (spawn name priority entry).Returns k := by
  unfold spawn
  rw [Returns, get_bind]
  split
  · refine Returns.bind (takePage_returns k) fun page k₁ _ => ?_
    cases page with
    | none => exact returns_pure _ k₁
    | some page =>
      dsimp only
      rw [Returns, takeId, modifyGet_bind]
      exact Returns.bind (Returns.masked ⟨_, _, change_of_ok rfl⟩) fun _ k₂ _ => returns_pure _ k₂
  · exact returns_pure _ k

/-- A new thread can always be unblocked: it is fresh, and there is room for it. -/
theorem create_returns (h : k.core.Able) (name : String) (priority : Nat) (body : C.Body) :
    (create name priority body).Returns k := by
  unfold create
  split
  · exact returns_pure _ k
  · refine Returns.bind (spawn_returns name priority (.body body) k) fun r k₁ hspawn => ?_
    rcases core_of_spawn hspawn with ⟨e, rfl, _⟩ | ⟨page, pool, rfl, _, hpool, hcore⟩
    · exact returns_pure _ k₁
    · have htables : k₁.tables
          = (k.core.hired name priority (.body body) page pool).tables := congrArg Core.tables hcore
      have hunblock : k₁.tables.unblock k.nextId = .ok (k₁.tables.readied k.nextId) := by
        rw [htables]
        refine Tables.unblock_eq_ok_iff.mpr
          ⟨⟨freshThread k.image k.nextId name priority page (.body body), ?_, ?_, rfl, rfl⟩,
            fun _ => h.readable.sound.queue_lt h.readable.housed, rfl⟩
        · exact (ThreadTable.find?_insert _ _ _).trans (if_pos rfl)
        · exact (PagePool.of_allocate hpool).2.1
      exact Returns.bind (Returns.masked ⟨_, _, change_of_ok hunblock⟩) fun _ k₂ _ =>
        ⟨_, _, rfl⟩

theorem setPriority_returns (h : k.core.Able) (priority : Nat) :
    (setPriority priority : Act C Unit).Returns k := by
  obtain ⟨c, th, hc, hth, _⟩ := h.readable.sound.current_runs
  refine Returns.masked ⟨_, _, change_of_ok (Fault.bind_eq_ok_iff.mpr
    ⟨c, Tables.currentId_eq_ok_iff.mpr hc, Fault.bind_eq_ok_iff.mpr
      ⟨th, Tables.thread_eq_ok_iff.mpr hth, rfl⟩⟩)⟩

/-! ## Waiting -/

/-- Why a wait for a length of time is refused, if it is. -/
def waitRefusal (k : Kernel C) (num denom : Nat) : Option Fault :=
  match k.clock.toTicks num denom with
  | .error e => some e
  | .ok ticks =>
    if Maskable.level k.cpu = .off then some .sleepMasked
    else if 0 < ticks then (if k.tables.idleRuns then some .idleSleep else none)
    else
      match Delay.subTickLoops k.clock.loopsPerTick k.clock.frequency num denom with
      | .error e => some e
      | .ok _ => none

theorem sleep_ends (hq : hooks.QueryOnly) (hp : hooks.Prompt) (h : k.core.Able) (n : Nat) :
    (sleep hooks n).Ends k (if Maskable.level k.cpu = .off then some .sleepMasked
      else if k.tables.idleRuns then some .idleSleep else none) :=
  ends_get_bind.mpr (requireUnmasked_ends fun _ => sleepUntil_ends hq hp h)

theorem realTimeSleep_ends (hq : hooks.QueryOnly) (hp : hooks.Prompt) (h : k.core.Able)
    (num denom : Nat) : (realTimeSleep hooks num denom).Ends k (k.waitRefusal num denom) := by
  unfold realTimeSleep waitRefusal
  refine ends_get_bind.mpr ?_
  dsimp only
  cases k.clock.toTicks num denom with
  | error e => exact Stops.bind ⟨k, rfl⟩
  | ok ticks =>
    refine (ends_bind (orFault_ok ticks k)).mpr (requireUnmasked_ends fun hon => ?_)
    split
    · have hsleep := sleep_ends hq hp h ticks
      rw [if_neg hon] at hsleep
      exact hsleep
    · cases Delay.subTickLoops k.clock.loopsPerTick k.clock.frequency num denom with
      | error e => exact Stops.bind ⟨k, rfl⟩
      | ok loops => exact (ends_bind (orFault_ok loops k)).mpr ⟨(), _, rfl⟩

/-! ## The timer -/

theorem advanceClock_of_lt (h : k.clock.ticks < Word.top) : (advanceClock : Act C Nat) k
    = .ok (k.clock.ticks + 1) { k with clock := { k.clock with ticks := k.clock.ticks + 1 } } := by
  unfold advanceClock
  rw [get_bind, Clock.advance_eq_ok h]
  rfl

theorem tickKind_returns (hp : hooks.Prompt) (hk : k.Answering) (id : ThreadId) (idle : Bool) :
    (tickKind hooks id idle).Returns k := by
  unfold tickKind
  split
  · exact returns_pure _ k
  · refine Returns.bind (Hooks.call_returns (hp.isUser id) hk) fun user k₁ _ => ?_
    cases user with
    | true => exact returns_pure _ k₁
    | false => exact returns_pure _ k₁

/-- The handler's sections come to their end, and so does the hook between them. -/
theorem tickThreads_returns (hq : hooks.QueryOnly) (hp : hooks.Prompt) (hup : k.initialized = true)
    (hreadable : k.tables.Readable)
    (hstats : k.tables.stats.idle + k.tables.stats.kernel + k.tables.stats.user < Word.top)
    (hslice : k.tables.sliceTicks < Word.top32) (now : Nat) : (tickThreads hooks now).Returns k := by
  obtain ⟨count, v, hv⟩ := hreadable.sound.wakeDue_complete hreadable.housed now
  have hsame : v.current = k.tables.current ∧ v.stats = k.tables.stats ∧
      v.sliceTicks = k.tables.sliceTicks := by
    rw [Tables.rest_of_wakeDue hv]
    exact ⟨rfl, rfl, rfl⟩
  obtain ⟨hcurrent, hvstats, hvslice⟩ := hsame
  have hreadable' : v.Readable :=
    ⟨hreadable.sound.wakeDue hv, hreadable.housed.steady (Tables.steady_wakeDue hv),
      by rw [hvstats]; exact hreadable.stats⟩
  obtain ⟨c, _, hc, _⟩ := hreadable.sound.current_runs
  have hid : v.currentId = .ok c := Tables.currentId_eq_ok_iff.mpr (hcurrent.trans hc)
  have hwake : wakeSleepers now k = .ok (c, v.isIdle c, count)
      { k with tables := v, history := .updated (Maskable.level k.cpu) :: k.history } := by
    unfold wakeSleepers
    rw [bind_of_ok (update_of_ok hv), bind_of_ok (inspect_eq_ok_iff.mpr ⟨hid, rfl⟩)]
    rfl
  unfold tickThreads
  rw [Returns, get_bind, if_pos hup]
  refine (returns_bind hwake).mpr (Returns.bind (tickKind_returns hp ?_ c (v.isIdle c))
    fun kind k₁ hkind => ?_)
  · exact answering_of_readable hreadable' hup
  have htables : k₁.tables = v := tables_of_core (core_of_tickKind hq hkind).2
  -- the hook only asked, so the second section finds what the first one left
  obtain ⟨expired, u, hu⟩ : ∃ expired u,
      k₁.tables.charge kind k₁.config.timeSlice = .ok (expired, u) := by
    rw [htables]
    exact Tables.charge_complete (by rw [hvstats]; exact hstats) (by rw [hvslice]; exact hslice)
  rw [Returns, get_bind]
  refine Returns.bind ⟨_, _, update_of_ok hu⟩ fun expired k₂ _ => ?_
  split
  · exact ⟨(), _, rfl⟩
  · exact returns_pure () k₂

/-- The handler comes back unless it was entered with interrupts on. -/
theorem timerInterrupt_ends (hq : hooks.QueryOnly) (hp : hooks.Prompt) (h : k.core.Upright)
    (hticks : k.clock.ticks < Word.top)
    (hstats : k.tables.stats.idle + k.tables.stats.kernel + k.tables.stats.user < Word.top)
    (hslice : k.tables.sliceTicks < Word.top32) :
    (timerInterrupt hooks).Ends k
      (if Maskable.level k.cpu = .on then some .timerUnmasked else none) := by
  unfold timerInterrupt
  apply requireMasked_ends
  intro _
  apply requireThreadContext_ends h.outside
  show Returns _ k
  rw [Returns, setInInterrupt, modify_bind]
  have hadvance := advanceClock_of_lt (k := { k with inInterrupt := true }) hticks
  refine (returns_bind hadvance).mpr (Returns.bind ?_ fun _ k₁ _ => ⟨(), _, rfl⟩)
  -- inside the handler nothing that the sections read has changed
  apply tickThreads_returns hq hp
  · exact h.up
  · exact h.readable
  · exact hstats
  · exact hslice

/-- A whole timer interrupt comes back, with the yield that it may end with. -/
theorem onTimerInterrupt_ends (hq : hooks.QueryOnly) (hp : hooks.Prompt) (h : k.core.Upright)
    (hticks : k.clock.ticks < Word.top)
    (hstats : k.tables.stats.idle + k.tables.stats.kernel + k.tables.stats.user < Word.top)
    (hslice : k.tables.sliceTicks < Word.top32)
    (hroom : ∀ s, Core.Ticked k.core s → s.yieldOnReturn = true → s.CanSwitch) :
    (onTimerInterrupt hooks).Ends k
      (if Maskable.level k.cpu = .on then some .timerUnmasked else none) := by
  have hhandler := timerInterrupt_ends hq hp h hticks hstats hslice
  unfold onTimerInterrupt
  split at hhandler
  · next hon =>
    rw [if_pos hon]
    exact Stops.bind hhandler
  · next hoff =>
    rw [if_neg hoff]
    refine Returns.bind hhandler fun _ k₁ htimer => ?_
    obtain ⟨_, _, hticked⟩ := core_of_timerInterrupt hq htimer
    rw [Returns, get_bind]
    split
    · next hasked =>
      have hswitch : k₁.core.CanSwitch := hroom k₁.core hticked hasked
      rw [modify_bind]
      -- the yield starts from the core that the handler left, with its request taken back
      refine yieldNow_returns hq hp (k := { k₁ with yieldOnReturn := false }) ?_ hswitch
      show k₁.core.answered.Upright
      generalize k₁.core = s₁ at hticked ⊢
      cases hticked with
      | early hfresh => rw [h.up] at hfresh; cases hfresh
      | full _ ht => exact h.ticked hstats ht
    · exact returns_pure () k₁

end Kernel
end RoundRobin
