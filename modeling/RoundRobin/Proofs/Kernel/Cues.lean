import RoundRobin.Proofs.Kernel.Effect
import RoundRobin.Proofs.Tables.Frame

/-!
# Cues

A kernel calls its process layer on cue. It activates a thread that has just become the current one, with
interrupts masked; it tells of the exit of the current thread; and the timer's handler, which runs with
interrupts masked, asks about the current thread if that is not the idle one. So nothing depends on what
a hook would do at any other time: process layers that do the same on cue are interchangeable.
-/

namespace RoundRobin

variable {C : Client} {hooks other : Hooks C}

/-! ## Process layers that do the same on cue -/

namespace Hooks

/-- Two process layers answer alike whenever the handler asks. -/
def AnswerAlike (hooks other : Hooks C) : Prop :=
  ∀ (id : ThreadId) (k : Kernel C), k.initialized = true → k.inInterrupt = true →
    k.tables.current = some id → k.tables.idle ≠ some id → Maskable.level k.cpu = .off →
    hooks.isUser id k = other.isUser id k

/-- Two process layers do the same whenever a kernel calls them. -/
structure SameOnCue (hooks other : Hooks C) : Prop where
  activate : ∀ {id : ThreadId} {k : Kernel C}, k.tables.current = some id →
    Maskable.level k.cpu = .off → hooks.activate id k = other.activate id k
  exit : ∀ {id : ThreadId} {k : Kernel C}, k.tables.current = some id →
    hooks.exit id k = other.exit id k
  isUser : hooks.AnswerAlike other

/-- A hook is called in the kernel that it was called in, but for the record of the call. -/
theorem call_congr {α : Type} {point : HookPoint} {id : ThreadId} {absent : α} {act act' : Act C α}
    {k : Kernel C}
    (h : act { k with history := .hook point id (Maskable.level k.cpu) :: k.history }
      = act' { k with history := .hook point id (Maskable.level k.cpu) :: k.history }) :
    call point id absent act k = call point id absent act' k := by
  unfold call
  rw [Act.get_bind, Act.get_bind]
  split
  · rw [Act.level_bind, Act.level_bind, Act.record_bind, Act.record_bind]
    exact h
  · rfl

end Hooks

/-! ## Operations -/

namespace Kernel

open Act

theorem giveUpCpu_congr (h : hooks.SameOnCue other) (status : Status) :
    giveUpCpu hooks status = giveUpCpu other status := by
  funext k
  unfold giveUpCpu
  refine bind_eq_bind fun _ k₁ hmasked => ?_
  obtain ⟨hoff, rfl⟩ := requireMasked_eq_ok_iff.mp hmasked
  refine bind_eq_bind fun d k₂ hdecide => ?_
  obtain ⟨t, ht, rfl⟩ := update_eq_ok_iff.mp hdecide
  rw [level_bind, level_bind, record_bind, record_bind]
  exact bind_eq_of_eq (Hooks.call_congr (h.activate (Tables.current_of_giveUp ht) hoff))

theorem block_congr (h : hooks.SameOnCue other) : block hooks = block other := by
  unfold block
  rw [giveUpCpu_congr h]

theorem yieldNow_congr (h : hooks.SameOnCue other) : yieldNow hooks = yieldNow other := by
  unfold yieldNow
  rw [giveUpCpu_congr h]

theorem sleepUntil_congr (h : hooks.SameOnCue other) : sleepUntil hooks = sleepUntil other := by
  funext wakeTick
  unfold sleepUntil
  rw [giveUpCpu_congr h]

theorem exit_congr (h : hooks.SameOnCue other) : exit hooks = exit other := by
  unfold exit
  rw [giveUpCpu_congr h]
  funext k
  refine bind_eq_bind fun _ k₁ hcontext => bind_eq_bind fun id k₂ hinspect => ?_
  obtain ⟨hid, rfl⟩ := inspect_eq_ok_iff.mp hinspect
  rw [log_bind, log_bind]
  exact bind_eq_of_eq (Hooks.call_congr (h.exit (Tables.currentId_eq_ok_iff.mp hid)))

theorem sleep_congr (h : hooks.SameOnCue other) : sleep hooks = sleep other := by
  funext ticks
  unfold sleep
  rw [sleepUntil_congr h]

theorem realTimeSleep_congr (h : hooks.SameOnCue other) :
    realTimeSleep hooks = realTimeSleep other := by
  funext num denom
  unfold realTimeSleep
  rw [sleep_congr h]

/-! ## The timer -/

theorem tickKind_congr {k : Kernel C} {id : ThreadId} {idle : Bool}
    (hcall : idle = false → hooks.callIsUser id k = other.callIsUser id k) :
    tickKind hooks id idle k = tickKind other id idle k := by
  unfold tickKind
  split
  · rfl
  · next hidle => exact bind_eq_of_eq (hcall ((Bool.not_eq_true _).mp hidle))

theorem tickThreads_congr {k : Kernel C} (h : hooks.AnswerAlike other) (hin : k.inInterrupt = true)
    (hoff : Maskable.level k.cpu = .off) (now : Nat) :
    tickThreads hooks now k = tickThreads other now k := by
  unfold tickThreads
  rw [get_bind, get_bind]
  split
  · next hup =>
    refine bind_eq_bind fun ⟨id, idle, woken⟩ k₁ hwake => ?_
    obtain ⟨t, _, hid, rfl, rfl⟩ := eq_of_wakeSleepers hwake
    refine bind_eq_of_eq (tickKind_congr fun hidle => Hooks.call_congr ?_)
    have hother : t.idle ≠ some id := fun hsame => by
      rw [Tables.isIdle_iff.mpr hsame] at hidle
      cases hidle
    exact h _ _ hup hin (Tables.currentId_eq_ok_iff.mp hid) hother hoff
  · rfl

theorem timerInterrupt_congr (h : hooks.AnswerAlike other) :
    timerInterrupt hooks = timerInterrupt other := by
  funext k
  unfold timerInterrupt
  refine bind_eq_bind fun _ k₁ hmasked => ?_
  obtain ⟨hoff, rfl⟩ := requireMasked_eq_ok_iff.mp hmasked
  refine bind_eq_bind fun _ k₁ houtside => ?_
  obtain ⟨_, rfl⟩ := requireThreadContext_eq_ok_iff.mp houtside
  rw [setInInterrupt, modify_bind, modify_bind]
  refine bind_eq_bind fun now k₁ hadvance => ?_
  obtain ⟨_, _, rfl⟩ := eq_of_advanceClock hadvance
  refine bind_eq_of_eq (tickThreads_congr h ?_ ?_ now)
  · rfl
  · exact hoff

theorem onTimerInterrupt_congr (h : hooks.SameOnCue other) :
    onTimerInterrupt hooks = onTimerInterrupt other := by
  unfold onTimerInterrupt
  rw [timerInterrupt_congr h.isUser, yieldNow_congr h]

end Kernel

/-- A call depends on the process layer only by what that does on cue. -/
theorem Call.perform_congr (h : hooks.SameOnCue other) (c : Call C.Body) :
    c.perform hooks = c.perform other := by
  cases c with
  | block => rw [perform, perform, Kernel.block_congr h]
  | yieldNow => rw [perform, perform, Kernel.yieldNow_congr h]
  | exit => rw [perform, perform, Kernel.exit_congr h]
  | sleepUntil => rw [perform, perform, Kernel.sleepUntil_congr h]
  | sleep => rw [perform, perform, Kernel.sleep_congr h]
  | realTimeSleep => rw [perform, perform, Kernel.realTimeSleep_congr h]
  | sleepMillis => rw [perform, perform, Kernel.sleepMillis, Kernel.realTimeSleep_congr h]; rfl
  | sleepMicros => rw [perform, perform, Kernel.sleepMicros, Kernel.realTimeSleep_congr h]; rfl
  | sleepNanos => rw [perform, perform, Kernel.sleepNanos, Kernel.realTimeSleep_congr h]; rfl
  | sleepFor =>
    rw [perform, perform, Kernel.sleepFor, Kernel.sleepNanos, Kernel.realTimeSleep_congr h]
    rfl
  | timerInterrupt => rw [perform, perform, Kernel.timerInterrupt_congr h.isUser]
  | onTimerInterrupt => rw [perform, perform, Kernel.onTimerInterrupt_congr h]
  | _ => rfl

end RoundRobin
