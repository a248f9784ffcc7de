import RoundRobin.Proofs.Kernel.Able
import RoundRobin.Proofs.Kernel.Handler
import RoundRobin.Proofs.Sleeping

/-!
# Ticks and who is charged for them

Every interrupt of an initialized kernel is charged to one kind of thread, that of the thread which it
interrupted. Ticks before the kernel is initialized, and those of a clock that is set forward by hand,
are counted by the clock and charged to nobody. So the statistics and the clock are two accounts of the
calls of a run.
-/

namespace RoundRobin

open Act

/-! ## One call -/

variable {C : Client} {hooks : Hooks C} {k k' : Kernel C} {c : Call C.Body} {r : Reply}

/-- Whether a call is an interrupt that comes too early to be charged to anybody. -/
def Kernel.tooEarly (k : Kernel C) (c : Call C.Body) : Bool := c.isTimer && !k.initialized

/-- Nothing but an interrupt is charged to anybody. -/
theorem Core.Effect.stats {s s' : Core C} (h : Effect s c s') (hc : c.isTimer = false) :
    s'.tables.stats = s.tables.stats := by
  cases h with
  | nothing => rfl
  | advance => rfl
  | adopt => rfl
  | start => rfl
  | create _ _ _ hunblock =>
    rw [Tables.rest_of_unblock hunblock]
    rfl
  | unblock hunblock =>
    show Tables.stats _ = _
    rw [Tables.rest_of_unblock hunblock]
  | leave _ hleave => exact (Tables.parting_of_leave hleave).stats
  | prioritize => rfl
  | timerInterrupt => cases hc
  | tick => cases hc
  | preempt => cases hc

namespace Kernel

theorem stats_of_timerInterrupt {u : Unit} (hq : hooks.QueryOnly)
    (h : timerInterrupt hooks k = .ok u k') : k'.tables.stats =
      if k.initialized then k.tables.stats.plus (k.kindAt hooks) else k.tables.stats := by
  by_cases hup : k.initialized = true
  · obtain ⟨asks, t, ht, history, client, rfl⟩ := agrees_of_timerInterrupt hq hup h
    rw [if_pos hup]
    exact Tables.stats_of_tick ht
  · rw [if_neg hup]
    generalize hcore : k'.core = s'
    have htables : k'.tables = s'.tables := congrArg Core.tables hcore
    obtain ⟨_, _, hticked⟩ := core_of_timerInterrupt hq h
    rw [hcore] at hticked
    rw [htables]
    cases hticked with
    | early => rfl
    | full hinit => exact absurd hinit hup

/-- The yield at the end of an interrupt charges nobody: it is the interrupted thread that pays, whoever
is dispatched. -/
theorem stats_of_onTimerInterrupt {u : Unit} (hq : hooks.QueryOnly)
    (h : onTimerInterrupt hooks k = .ok u k') : k'.tables.stats =
      if k.initialized then k.tables.stats.plus (k.kindAt hooks) else k.tables.stats := by
  unfold onTimerInterrupt at h
  rw [bind_eq_ok_iff] at h
  obtain ⟨_, k₁, htimer, h⟩ := h
  rw [← stats_of_timerInterrupt hq htimer]
  rw [get_bind] at h
  split at h
  · rw [modify_bind] at h
    obtain ⟨d, t, hleave, hcore⟩ := core_of_yieldNow hq h
    rw [show k'.tables = t from congrArg Core.tables hcore]
    exact (Tables.parting_of_leave hleave).stats
  · rw [(pure_eq_ok_iff.mp h).2]

end Kernel

theorem Call.stats_of_perform (hq : hooks.QueryOnly) (h : c.perform hooks k = .ok r k') :
    k'.tables.stats =
      if k.charges c then k.tables.stats.plus (k.kindAt hooks) else k.tables.stats := by
  by_cases hc : c.isTimer = true
  · rw [Kernel.charges, hc, Bool.true_and]
    cases c with
    | timerInterrupt => exact Kernel.stats_of_timerInterrupt hq (ok_of_bind_pure h).choose_spec
    | onTimerInterrupt => exact Kernel.stats_of_onTimerInterrupt hq (ok_of_bind_pure h).choose_spec
    | _ => cases hc
  · rw [Bool.not_eq_true] at hc
    rw [Kernel.charges, hc, Bool.false_and, if_neg nofun]
    exact (Call.effect hq h).stats hc

theorem Call.ticks_of_perform (hq : hooks.QueryOnly) (h : c.perform hooks k = .ok r k') :
    k'.clock.ticks = k.clock.ticks + (if k.charges c then 1 else 0)
      + (if k.tooEarly c then 1 else 0) + (if c.keepsTime then 0 else 1) := by
  by_cases hadvance : c = .advanceClock
  · subst hadvance
    obtain ⟨_, hcall⟩ := ok_of_bind_pure h
    obtain ⟨_, _, rfl⟩ := Kernel.eq_of_advanceClock hcall
    rfl
  · have hticks : k'.clock.ticks = k.clock.ticks + if c.isTimer then 1 else 0 :=
      (Call.effect hq h).ticks.2 hadvance
    have hkeeps : c.keepsTime = true := by
      cases c <;> first | rfl | exact absurd rfl hadvance
    rw [hticks, hkeeps, Kernel.charges, Kernel.tooEarly]
    cases c.isTimer <;> cases k.initialized <;> rfl

/-! ## The calls of a run -/

/-- How many of the calls of a run are of a certain sort. -/
def Kernel.tally (hooks : Hooks C) (calls : List (Call C.Body)) (k : Kernel C)
    (p : Kernel C → Call C.Body → Bool) : Nat :=
  (k.stages hooks calls).countP fun stage => p stage.before stage.call

variable {allowed : Kernel C → Call C.Body → Prop} {k₀ k₁ k₂ : Kernel C}
  {calls : List (Call C.Body)} {config : Config} {client : C.State}

theorem Run.tally_snoc (hrun : Run hooks allowed k calls k₁)
    (hstep : c.perform hooks k₁ = .ok r k₂) (p : Kernel C → Call C.Body → Bool) :
    k.tally hooks (calls ++ [c]) p = k.tally hooks calls p + if p k₁ c then 1 else 0 := by
  unfold Kernel.tally
  rw [hrun.stages_snoc hstep, List.countP_append, List.countP_singleton]

/-- The interrupts of a run that are charged to a kind of thread. -/
theorem Run.charged (hq : hooks.QueryOnly) (hrun : Run hooks allowed k₀ calls k) (kind : TickKind) :
    k.tables.stats.of kind = k₀.tables.stats.of kind
      + k₀.tally hooks calls fun k c => k.charges c && decide (k.kindAt hooks = kind) := by
  induction hrun with
  | nil => rfl
  | @snoc calls c r k₁ k₂ run _ step ih =>
    rw [run.tally_snoc step, Call.stats_of_perform hq step, ← Nat.add_assoc, ← ih]
    by_cases hc : k₁.charges c = true
    · rw [if_pos hc, TickStats.of_plus, hc]
      simp only [Bool.true_and, decide_eq_true_eq]
    · simp [hc]

theorem Run.charged_all (hq : hooks.QueryOnly) (hrun : Run hooks allowed k₀ calls k) :
    k.tables.stats.idle + k.tables.stats.kernel + k.tables.stats.user
      = k₀.tables.stats.idle + k₀.tables.stats.kernel + k₀.tables.stats.user
        + k₀.tally hooks calls Kernel.charges := by
  induction hrun with
  | nil => rfl
  | @snoc calls c r k₁ k₂ run _ step ih =>
    rw [run.tally_snoc step, Call.stats_of_perform hq step, ← Nat.add_assoc, ← ih]
    by_cases hc : k₁.charges c = true
    · rw [if_pos hc, if_pos hc, TickStats.sum_plus]
    · rw [if_neg hc, if_neg hc, Nat.add_zero]

theorem Run.clocked (hq : hooks.QueryOnly) (hrun : Run hooks allowed k₀ calls k) :
    k.clock.ticks = k₀.clock.ticks + k₀.tally hooks calls Kernel.charges
      + k₀.tally hooks calls Kernel.tooEarly + k₀.tally hooks calls fun _ c => !c.keepsTime := by
  induction hrun with
  | nil => rfl
  | @snoc calls c r k₁ k₂ run _ step ih =>
    rw [run.tally_snoc step, run.tally_snoc step, run.tally_snoc step, Call.ticks_of_perform hq step, ih]
    cases c.keepsTime <;> simp <;> omega

/-- What the statistics and the clock of `k` say of the calls that led to it from a new kernel. -/
structure Attributed (hooks : Hooks C) (k₀ : Kernel C) (calls : List (Call C.Body)) (k : Kernel C) :
    Prop where
  /-- As many ticks were charged as there were interrupts since the kernel was initialized. -/
  total : k.tables.stats.total = .ok (k₀.tally hooks calls Kernel.charges)
  sum : k.tables.stats.idle + k.tables.stats.kernel + k.tables.stats.user
    = k₀.tally hooks calls Kernel.charges
  /-- The clock counts the earlier ones too, and the times that it was set forward by hand. -/
  clock : k.clock.ticks = k₀.tally hooks calls Kernel.charges + k₀.tally hooks calls Kernel.tooEarly
    + k₀.tally hooks calls fun _ c => !c.keepsTime
  /-- Each interrupt was charged to the thread that it found running. -/
  kinds : ∀ kind, k.tables.stats.of kind
    = k₀.tally hooks calls fun k c => k.charges c && decide (k.kindAt hooks = kind)
  /-- So will the next one be, and nothing else is charged to anybody. -/
  next : ∀ c r k', c.perform hooks k = .ok r k' → k'.tables.stats =
    if k.charges c then k.tables.stats.plus (k.kindAt hooks) else k.tables.stats

/-- Every run keeps both accounts. -/
theorem ticks_attributed (hq : hooks.QueryOnly) (h₀ : Kernel.ofConfig config client = .ok k₀)
    (hrun : Run hooks anyCall k₀ calls k) : Attributed hooks k₀ calls k := by
  have hnew : k₀.tables.stats = {} ∧ k₀.clock.ticks = 0 := by
    obtain ⟨_, _, rfl⟩ := Kernel.eq_of_ofConfig h₀
    exact ⟨rfl, rfl⟩
  have hsum := hrun.charged_all hq
  have hclock := hrun.clocked hq
  rw [hnew.1] at hsum
  rw [hnew.2] at hclock
  simp only [Nat.zero_add] at hsum hclock
  have hbounded : k.core.ticks ≤ Word.top :=
    hrun.keeps hq Core.kept_bounded (by rw [Kernel.core, hnew.2]; exact Nat.zero_le _)
  have hfits : k.clock.ticks ≤ Word.top := hbounded
  refine ⟨?_, hsum, hclock, fun kind => ?_, fun c r k' h => Call.stats_of_perform hq h⟩
  · rw [TickStats.total_eq_ok (by omega), hsum]
  · rw [hrun.charged hq kind, hnew.1]
    cases kind <;> exact Nat.zero_add _

/-- A process layer whose only user program is the thread with the number three. -/
def oneUser : Hooks plainClient := { Hooks.plain with isUser i := pure (decide (i.val = 3)) }

/-- The first interrupt comes too early, and a tick is set by hand. After that the thread that booted is
interrupted, a worker is, which the process layer has for a user program, and the idle thread is. -/
def interruptedCalls : List (Call Unit) := [.onTimerInterrupt, .advanceClock, .init, .start,
  .installHooks, .setLevel .off, .onTimerInterrupt, .create "worker" 31 (), .block, .onTimerInterrupt,
  .sleepUntil 5, .onTimerInterrupt]

/-- The interrupt of the idle thread is charged to the idle thread, though it wakes the worker, which
then runs. -/
theorem ticks_attributed_each_kind : ∃ k : Kernel plainClient,
    plainKernel.after oneUser (fun _ _ => true) interruptedCalls = some k ∧
    Attributed oneUser plainKernel interruptedCalls k ∧
    k.tables.stats = { idle := 1, kernel := 1, user := 1 } ∧ k.clock.ticks = 5 ∧
    k.tables.current = some ⟨3⟩ := by
  have hafter : (plainKernel.after oneUser (fun _ _ => true) interruptedCalls).any (fun k =>
      decide (k.tables.stats = { idle := 1, kernel := 1, user := 1 } ∧ k.clock.ticks = 5 ∧
        k.tables.current = some ⟨3⟩)) = true := by decide +kernel
  obtain ⟨k, hk, hchecks⟩ := (Option.any_eq_true _ _).mp hafter
  have hquery : oneUser.QueryOnly := ⟨fun _ => onlyAsks_pure (), fun _ => onlyAsks_pure (),
    fun _ => onlyAsks_pure _⟩
  exact ⟨k, hk, ticks_attributed hquery ofConfig_standard
    ((Run.of_after hk).mono fun _ _ _ => trivial), of_decide_eq_true hchecks⟩

end RoundRobin
