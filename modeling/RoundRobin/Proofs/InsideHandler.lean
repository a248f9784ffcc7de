import RoundRobin.Proofs.Kernel.Coherent
import RoundRobin.Proofs.Kernel.Cues
import RoundRobin.Proofs.Kernel.Fenced

/-!
# Nothing is scheduled inside the handler

Between its two critical sections the timer's handler asks the process layer whether a thread runs a
user program. The answer is computed by code that the kernel does not know, and that may call back.
Whatever it calls, no decision is made before the handler is over: the calls that would make one stop,
and all others leave the current thread on the processor.
-/

namespace RoundRobin

variable {C : Client} {α : Type} {hooks inner : Hooks C} {k k' : Kernel C}

/-! ## The code of a hook -/

/-- What a hook does. It looks at the kernel, keeps a state of its own, makes notes, and calls what it
likes, even what it must not call; a fault of such a call it may catch. -/
inductive HookCode (C : Client) (α : Type) where
  | done (a : α)
  | stop (e : Fault)
  | look (next : Kernel C → HookCode C α)
  | keep (change : C.State → C.State) (next : HookCode C α)
  | note (n : C.Note) (next : HookCode C α)
  | call (c : Call C.Body) (next : Except Fault Reply → HookCode C α)

namespace HookCode

/-- Runs the code. `inner` are the hooks that a call made by the code would call in its turn. -/
def run (inner : Hooks C) : HookCode C α → Act C α
  | done a => return a
  | stop e => throw e
  | look next => do run inner (next (← get))
  | keep change next => do
    modify fun k => { k with client := change k.client }
    run inner next
  | note n next => do
    Act.record (.note n)
    run inner next
  | call c next => do run inner (next (← (c.perform inner).attempt))

/-- A call that the code makes when it starts on a kernel, and the kernel that it is made on. -/
inductive Makes (inner : Hooks C) : HookCode C α → Kernel C → Call C.Body → Kernel C → Prop where
  | look {next : Kernel C → HookCode C α} {k m : Kernel C} {c : Call C.Body}
      (rest : Makes inner (next k) k c m) : Makes inner (.look next) k c m
  | keep {change : C.State → C.State} {next : HookCode C α} {k m : Kernel C} {c : Call C.Body}
      (rest : Makes inner next { k with client := change k.client } c m) :
      Makes inner (.keep change next) k c m
  | note {n : C.Note} {next : HookCode C α} {k m : Kernel C} {c : Call C.Body}
      (rest : Makes inner next { k with history := .note n :: k.history } c m) :
      Makes inner (.note n next) k c m
  | now {c : Call C.Body} {next : Except Fault Reply → HookCode C α} {k : Kernel C} :
      Makes inner (.call c next) k c k
  | later {d c : Call C.Body} {next : Except Fault Reply → HookCode C α}
      {r : Except Fault Reply} {k k₁ m : Kernel C} (step : (d.perform inner).attempt k = .ok r k₁)
      (rest : Makes inner (next r) k₁ c m) : Makes inner (.call d next) k c m

theorem fenced_run (inner : Hooks C) (code : HookCode C α) : (code.run inner).Fenced := by
  induction code with
  | done a => exact Act.fenced_pure a
  | stop e => exact Act.fenced_throw e
  | look next ih => exact Act.fenced_get.bind ih
  | keep change next ih =>
    exact Act.Fenced.bind (Act.fenced_modify fun _ => Kernel.undisturbed_of_eq rfl rfl rfl) fun _ => ih
  | note n next ih => exact (Act.fenced_record rfl).bind fun _ => ih
  | call c next ih => exact (c.fenced inner).attempt.bind ih

/-- When the code comes to a call, what it did before has disturbed nothing. -/
theorem Makes.undisturbed {code : HookCode C α} {c : Call C.Body} {m : Kernel C}
    (h : code.Makes inner k c m) (hin : k.inInterrupt = true) (hup : k.initialized = true) :
    k.Undisturbed m := by
  induction h with
  | look _ ih => exact ih hin hup
  | keep _ ih =>
    refine Kernel.Undisturbed.trans ?_ (ih hin hup)
    exact Kernel.undisturbed_of_eq rfl rfl rfl
  | note _ ih => exact (Kernel.undisturbed_record rfl _).trans (ih hin hup)
  | now => exact .refl _
  | @later d c next r k k₁ m step _ ih =>
    have hfirst := (d.fenced inner).attempt.of_ok hin hup step
    exact hfirst.trans (ih (hfirst.inInterrupt.trans hin) (hfirst.initialized.trans hup))

end HookCode

/-! ## The handler -/

namespace Kernel

open Act

theorem fenced_wakeSleepers (now : Nat) :
    (wakeSleepers now : Act C (ThreadId × Bool × Nat)).Fenced :=
  (fenced_update fun _ _ _ => Tables.still_of_wakeDue).bind fun _ =>
    (fenced_inspect _).bind fun _ => fenced_get.bind fun _ => fenced_pure _

theorem fenced_tickKind (hask : ∀ id, (hooks.isUser id).Fenced) (id : ThreadId) (idle : Bool) :
    (tickKind hooks id idle).Fenced := by
  unfold tickKind
  split
  · exact fenced_pure _
  · refine Fenced.bind ?_ fun user => ?_
    · refine fenced_get.bind fun _ => ?_
      split
      · exact fenced_level.bind fun _ => (fenced_record rfl).bind fun _ => hask id
      · exact fenced_pure _
    · cases user <;> exact fenced_pure _

/-- What the handler has done when it is over: it charged the tick, and decided nothing. -/
structure Handled (k k' : Kernel C) : Prop where
  current : k'.tables.current = k.tables.current
  running : ∀ c, k.tables.current = some c → k.Runs c → k'.statusOf c = some .running
  reclaim : k'.tables.reclaim = k.tables.reclaim
  switches : k'.tables.switches = k.tables.switches
  /-- The processor switched no contexts. -/
  switched : k'.cpu.switches = k.cpu.switches
  decisions : k'.decisions = k.decisions
  sliceTicks : k'.tables.sliceTicks = k.tables.sliceTicks + 1
  outside : k'.inInterrupt = false

theorem standing_of_tickThreads {now : Nat} {u : Unit} (hask : ∀ id, (hooks.isUser id).Fenced)
    (hin : k.inInterrupt = true) (hup : k.initialized = true)
    (h : tickThreads hooks now k = .ok u k') :
    k'.standing = { k.standing with sliceTicks := k.standing.sliceTicks + 1 } ∧
      ∀ c, k.Runs c → k'.Runs c := by
  unfold tickThreads at h
  rw [get_bind, if_pos hup, bind_eq_ok_iff] at h
  obtain ⟨⟨id, idle, woken⟩, k₁, hwake, h⟩ := h
  dsimp only at h
  rw [bind_eq_ok_iff] at h
  obtain ⟨kind, k₂, hkind, h⟩ := h
  have h₁ := (fenced_wakeSleepers now).of_ok hin hup hwake
  have h₂ := (fenced_tickKind hask id idle).of_ok (h₁.inInterrupt.trans hin)
    (h₁.initialized.trans hup) hkind
  have hbefore := h₁.trans h₂
  rw [get_bind, bind_eq_ok_iff] at h
  obtain ⟨expired, k₃, hcharge, h⟩ := h
  obtain ⟨t, ht, rfl⟩ := update_eq_ok_iff.mp hcharge
  obtain ⟨stats, _, _, _, rfl⟩ := Tables.charge_eq_ok_iff.mp ht
  have hafter : ∀ k₄ : Kernel C, k₄.standing = { k₂.standing with
      sliceTicks := k₂.standing.sliceTicks + 1 } → (∀ c, k₂.Runs c → k₄.Runs c) →
      k₄.standing = { k.standing with sliceTicks := k.standing.sliceTicks + 1 } ∧
        ∀ c, k.Runs c → k₄.Runs c :=
    fun k₄ hs hr => ⟨by rw [hs, hbefore.standing], fun c hc => hr c (hbefore.runs c hc)⟩
  split at h
  · rw [requestYield, modify_eq_ok_iff] at h
    subst h
    exact hafter _ rfl fun c hc => ⟨hc.running, hc.taken, hc.notLast⟩
  · rw [(pure_eq_ok_iff.mp h).2]
    exact hafter _ rfl fun c hc => ⟨hc.running, hc.taken, hc.notLast⟩

theorem handled_of_timerInterrupt {u : Unit} (hask : ∀ id, (hooks.isUser id).Fenced)
    (hup : k.initialized = true) (h : timerInterrupt hooks k = .ok u k') : k.Handled k' := by
  unfold timerInterrupt at h
  obtain ⟨_, h⟩ := requireMasked_bind_eq_ok_iff.mp h
  obtain ⟨_, h⟩ := requireThreadContext_bind_eq_ok_iff.mp h
  rw [setInInterrupt, modify_bind, bind_eq_ok_iff] at h
  obtain ⟨now, k₁, hadvance, h⟩ := h
  have h₁ : Undisturbed { k with inInterrupt := true } k₁ :=
    fenced_advanceClock.of_ok rfl hup hadvance
  rw [bind_eq_ok_iff] at h
  obtain ⟨_, k₂, htick, h⟩ := h
  obtain ⟨hstanding, hruns⟩ :=
    standing_of_tickThreads hask h₁.inInterrupt (h₁.initialized.trans hup) htick
  rw [h₁.standing] at hstanding
  rw [setInInterrupt, modify_eq_ok_iff] at h
  subst h
  constructor
  · exact congrArg Standing.current hstanding
  · intro c _ hc
    exact (hruns c (h₁.runs c ⟨hc.running, hc.taken, hc.notLast⟩)).running
  · exact congrArg Standing.reclaim hstanding
  · exact congrArg (fun s => s.switches.1) hstanding
  · exact congrArg (fun s => s.switches.2) hstanding
  · exact congrArg Standing.decisions hstanding
  · exact congrArg Standing.sliceTicks hstanding
  · rfl

end Kernel

/-- In a kernel that a run led to the current thread runs. -/
theorem Run.runs_current {allowed : Kernel C → Call C.Body → Prop} {calls : List (Call C.Body)}
    {config : Config} {client : C.State} {k₀ : Kernel C} {c : ThreadId} (hq : hooks.QueryOnly)
    (h₀ : Kernel.ofConfig config client = .ok k₀) (hrun : Run hooks allowed k₀ calls k)
    (hspawns : k.spawns + 1 < Word.top) (hc : k.tables.current = some c) : k.Runs c := by
  have hcoherent := hrun.coherent hq h₀
  have hroom : k.core.spawns < Word.top := Nat.lt_of_succ_lt hspawns
  have hrecorded := hcoherent.recorded hroom (hcoherent.up_of_current hroom hc)
  obtain ⟨c', th, hc', hth, hrunning⟩ := hrecorded.sound.current_runs
  obtain rfl : c' = c := Option.some.inj (hc'.symm.trans hc)
  have hknown := hrecorded.known c' th hth
  have hnext : k.nextId.val = Word.saturate (k.spawns + 2) := hrecorded.nextId
  refine ⟨?_, ?_, ?_⟩
  · rw [← hrunning]
    exact congrArg (Option.map (·.status)) hth
  · rw [hnext, Word.saturate_eq_self hspawns]
    exact Nat.lt_succ_of_le hknown
  · exact Nat.lt_of_le_of_lt hknown hspawns

/-! ## Hooks that call back -/

/-- Let the code that answers `isUser` call whatever it likes. If the handler comes back, it charged the
tick and decided nothing. It asks only while it runs, and it runs at every call that the code makes, so
each call that would give up the processor stops there, with the kernel as it was. -/
theorem nothing_scheduled_inside {code : ThreadId → HookCode C Bool}
    (hcode : ∀ id, hooks.isUser id = (code id).run inner) (hup : k.initialized = true) :
    (∀ k', Kernel.timerInterrupt hooks k = .ok () k' → k.Handled k') ∧
    (∀ other : Hooks C,
      (∀ id m, m.inInterrupt = true → other.isUser id m = hooks.isUser id m) →
      Kernel.timerInterrupt other k = Kernel.timerInterrupt hooks k) ∧
    ∀ id m c m', m.inInterrupt = true → m.initialized = true → (code id).Makes inner m c m' →
      m'.inInterrupt = true ∧
      ∀ e, c.refusalInside (Maskable.level m'.cpu) = some e → c.perform inner m' = .error e m' := by
  have hask : ∀ id, (hooks.isUser id).Fenced := fun id => hcode id ▸ (code id).fenced_run inner
  refine ⟨fun k' h => Kernel.handled_of_timerInterrupt hask hup h,
    fun other hagree => congrFun
      (Kernel.timerInterrupt_congr fun id m _ hin _ _ _ => hagree id m hin) k, ?_⟩
  intro id m c m' hin hready hmakes
  have hinside := (hmakes.undisturbed hin hready).inInterrupt.trans hin
  exact ⟨hinside, fun e he => Call.stops_inside hinside he⟩

/-- Code that calls all that it must not call, catches what comes of it, and makes a thread. -/
def meddlingCode : HookCode plainClient Bool :=
  .call .block fun _ => .call .yieldNow fun _ => .call (.sleepUntil 5) fun _ => .call .exit fun _ =>
    .call .timerInterrupt fun _ => .call .start fun _ => .call (.create "late" 31 ()) fun _ =>
      .call (.setPriority 7) fun _ => .done true

def meddlingHooks : Hooks plainClient := { Hooks.plain with isUser _ := meddlingCode.run .plain }

/-- The thread that such a hook makes is ready when the handler is over, and waits for its turn. -/
theorem nothing_scheduled_inside_meddled : ∃ k k' : Kernel plainClient,
    plainKernel.after .plain (fun _ _ => true) [.init, .start, .installHooks, .setLevel .off] = some k ∧
    Kernel.timerInterrupt meddlingHooks k = .ok () k' ∧ k'.tables.ready.ids = [⟨3⟩] ∧
    k.Handled k' ∧ k'.statusOf ⟨1⟩ = some .running := by
  have hchecks : (plainKernel.after .plain (fun _ _ => true)
      [.init, .start, .installHooks, .setLevel .off]).any (fun k =>
        k.initialized && decide (k.spawns + 1 < Word.top) &&
          decide (k.tables.current = some ⟨1⟩) &&
            match Kernel.timerInterrupt meddlingHooks k with
            | .ok _ k' => decide (k'.tables.ready.ids = [⟨3⟩])
            | .error _ _ => false) = true := by decide +kernel
  obtain ⟨k, hk, hchecks⟩ := (Option.any_eq_true _ _).mp hchecks
  obtain ⟨hbefore, hticked⟩ := (Bool.and_eq_true _ _).mp hchecks
  simp only [Bool.and_eq_true, decide_eq_true_eq] at hbefore
  obtain ⟨⟨hup, hspawns⟩, hcurrent⟩ := hbefore
  cases hhandler : Kernel.timerInterrupt meddlingHooks k with
  | error e k' => rw [hhandler] at hticked; cases hticked
  | ok u k' =>
    rw [hhandler] at hticked
    obtain ⟨hreturns, _⟩ := @nothing_scheduled_inside plainClient meddlingHooks .plain k
      (fun _ => meddlingCode) (fun _ => rfl) hup
    have hhandled := hreturns k' hhandler
    have hruns := (Run.of_after hk).runs_current Hooks.queryOnly_plain ofConfig_standard hspawns hcurrent
    exact ⟨k, k', hk, hhandler, of_decide_eq_true hticked, hhandled,
      hhandled.running _ hcurrent hruns⟩

end RoundRobin
