import RoundRobin.Proofs.SleepWrappers

/-!
# Waits of any rational length

A wait is given as a number of seconds by numerator and denominator. Of a tick and more it is a sleep,
and any denominator but zero will do. Below a tick the turns of the delay loop are reckoned in
thousandths, and a denominator that a thousand does not divide is refused. So whether such a denominator
is accepted depends on the numerator: it is when the wait takes a tick.
-/

namespace RoundRobin

variable {C : Client} {hooks : Hooks C} {k k₀ : Kernel C}

/-! ## Which denominators the delay loop takes -/

namespace Delay

variable {loopsPerTick frequency num denom : Nat}

/-- Turns are reckoned for multiples of a thousand, -/
theorem subTickLoops_of_dvd (hpos : 0 < denom) (hdvd : 1000 ∣ denom) :
    subTickLoops loopsPerTick frequency num denom
      = .ok (Word.saturate (loopsPerTick * num / 1000 * frequency / (denom / 1000))) := by
  have hthousands : 0 < denom / 1000 := Nat.div_pos (Nat.le_of_dvd hpos hdvd) (by decide)
  unfold subTickLoops
  rw [if_neg (by omega), if_neg (by omega)]

/-- and for nothing else. -/
theorem subTickLoops_of_not_dvd (hdvd : ¬ 1000 ∣ denom) :
    subTickLoops loopsPerTick frequency num denom = .error .coarseDenominator := by
  unfold subTickLoops
  rw [if_pos (by omega)]

end Delay

/-! ## What a wait does -/

namespace Kernel

open Act

variable {num denom : Nat}

/-- A short wait whose turns cannot be reckoned stops, and leaves the kernel as it was. -/
theorem realTimeSleep_of_fault {f : Fault} (hon : Maskable.level k.cpu = .on)
    (hticks : k.clock.toTicks num denom = .ok 0)
    (hloops : Delay.subTickLoops k.clock.loopsPerTick k.clock.frequency num denom = .error f) :
    realTimeSleep hooks num denom k = .error f k := by
  unfold realTimeSleep
  rw [get_bind, hticks, hloops]
  refine (bind_of_ok (orFault_ok 0 k)).trans ?_
  rw [bind_of_ok (requireUnmasked_eq_ok_iff.mpr ⟨hon, rfl⟩ : _ = EStateM.Result.ok () k),
    if_neg (Nat.lt_irrefl 0)]
  exact bind_of_error (orFault_error f k)

/-- Below a tick a denominator that a thousand divides is served in less than a tick's turns. -/
theorem realTimeSleep_of_dvd (hon : Maskable.level k.cpu = .on) (hpos : 0 < denom)
    (hsub : num * k.clock.frequency / denom = 0) (hdvd : 1000 ∣ denom) :
    ∃ loops, realTimeSleep hooks num denom k
        = .ok () { k with history := .spun loops :: k.history } ∧
      loops < max k.clock.loopsPerTick 1 := by
  have hticks : k.clock.toTicks num denom = .ok 0 := by
    rw [k.clock.toTicks_eq_ok num hpos, hsub]
    rfl
  have hlt : num * k.clock.frequency < denom :=
    (Nat.div_eq_zero_iff.mp hsub).resolve_left (Nat.ne_of_gt hpos)
  have hloops : Delay.subTickLoops k.clock.loopsPerTick k.clock.frequency num denom = .ok _ :=
    Delay.subTickLoops_of_dvd hpos hdvd
  exact ⟨_, realTimeSleep_of_loops hon hticks hloops,
    Nat.lt_of_le_of_lt (Delay.le_of_subTickLoops hloops) (Delay.turns_lt _ hlt)⟩

/-- Below a tick any other denominator is refused. -/
theorem realTimeSleep_of_not_dvd (hon : Maskable.level k.cpu = .on) (hpos : 0 < denom)
    (hsub : num * k.clock.frequency / denom = 0) (hdvd : ¬ 1000 ∣ denom) :
    realTimeSleep hooks num denom k = .error .coarseDenominator k := by
  apply realTimeSleep_of_fault hon _ (Delay.subTickLoops_of_not_dvd hdvd)
  rw [k.clock.toTicks_eq_ok num hpos, hsub]
  rfl

/-- A wait of a tick and more is a sleep until that many ticks are over, whatever the denominator. -/
theorem realTimeSleep_of_whole (hq : hooks.QueryOnly) (hp : hooks.Prompt) (hable : k.core.Able)
    (hon : Maskable.level k.cpu = .on) (hidle : k.tables.idleRuns = false) (hpos : 0 < denom)
    (hwhole : 0 < num * k.clock.frequency / denom) :
    ∃ t k', k.tables.current = some t ∧ realTimeSleep hooks num denom k = .ok () k' ∧
      k'.tables.Sleeps t (min (k.clock.ticks + num * k.clock.frequency / denom) Word.top) := by
  have hticks : 0 < Word.saturate (num * k.clock.frequency / denom) :=
    Nat.lt_min.mpr ⟨hwhole, by decide⟩
  obtain ⟨t, k', hc, hsleep, hsleeps⟩ := sleeps_of_sleep hq hp hable hon hidle
    (Word.saturate (num * k.clock.frequency / denom))
  rw [Clock.deadline_saturate] at hsleeps
  refine ⟨t, k', hc, ?_, hsleeps⟩
  rw [realTimeSleep_of_ticks hon (k.clock.toTicks_eq_ok num hpos) hticks]
  exact hsleep

end Kernel

/-! ## Every length -/

/-- A wait of a tick and more sleeps until as many ticks are over, whatever its denominator. A shorter one
turns the delay loop for less than a tick if a thousand divides the denominator, and leaves the scheduler
as it was; if not, it is refused. So the denominators that do for every numerator are the multiples of a
thousand. -/
theorem rational_waits {config : Config} {client : C.State} {denom : Nat} (hq : hooks.QueryOnly)
    (hp : hooks.Prompt) (h₀ : Kernel.ofConfig config client = .ok k₀)
    (h : Course Course.decent k₀ k) (hstarted : k.started = true) (hspawns : k.spawns < Word.top)
    (hdecisions : k.decisions.length < Word.top) (hon : Maskable.level k.cpu = .on)
    (hidle : k.tables.idleRuns = false) (hpos : 0 < denom) :
    (∀ num, 0 < num * config.timerHz / denom → ∃ t k', k.tables.current = some t ∧
      Kernel.realTimeSleep hooks num denom k = .ok () k' ∧
      k'.tables.Sleeps t (min (k.clock.ticks + num * config.timerHz / denom) Word.top)) ∧
    (∀ num, num * config.timerHz / denom = 0 → 1000 ∣ denom → ∃ loops,
      Kernel.realTimeSleep hooks num denom k
        = .ok () { k with history := .spun loops :: k.history } ∧
      loops < max k.clock.loopsPerTick 1) ∧
    (∀ num, num * config.timerHz / denom = 0 → ¬ 1000 ∣ denom →
      Kernel.realTimeSleep hooks num denom k = .error .coarseDenominator k) ∧
    ((∀ num ≤ Word.top, ∃ k', Kernel.realTimeSleep hooks num denom k = .ok () k')
      ↔ 1000 ∣ denom) := by
  have hable : k.core.Able := h.able h₀ hstarted hspawns hdecisions
  have hfrequency : k.clock.frequency = config.timerHz :=
    h.frequency_eq.trans (Kernel.frequency_of_ofConfig h₀)
  rw [← hfrequency]
  have hwhole : ∀ num, 0 < num * k.clock.frequency / denom → _ := fun num =>
    Kernel.realTimeSleep_of_whole hq hp hable hon hidle hpos
  have hshort : ∀ num, num * k.clock.frequency / denom = 0 → 1000 ∣ denom → ∃ loops,
      Kernel.realTimeSleep hooks num denom k = .ok () { k with history := .spun loops :: k.history } ∧
        loops < max k.clock.loopsPerTick 1 := fun num => Kernel.realTimeSleep_of_dvd hon hpos
  refine ⟨hwhole, hshort,
    fun num => Kernel.realTimeSleep_of_not_dvd hon hpos, ?_, ?_⟩
  · intro hserved
    apply Decidable.byContradiction
    intro hdvd
    -- no time at all is less than a tick
    have hnone : 0 * k.clock.frequency / denom = 0 := by rw [Nat.zero_mul, Nat.zero_div]
    obtain ⟨k', hk'⟩ := hserved 0 (by decide)
    rw [Kernel.realTimeSleep_of_not_dvd hon hpos hnone hdvd] at hk'
    cases hk'
  · intro hdvd num _
    rcases Nat.eq_zero_or_pos (num * k.clock.frequency / denom) with hsub | hticks
    · obtain ⟨loops, hspun, _⟩ := hshort num hsub hdvd
      exact ⟨_, hspun⟩
    · obtain ⟨_, k', _, hslept, _⟩ := hwhole num hticks
      exact ⟨k', hslept⟩

/-- At a hundred ticks a second and 1600 turns a tick the thread that booted sleeps for eleven 1024ths of
a second, which are a tick and some more, and turns the loop for a 3000th. One 1024th is refused. -/
theorem rational_waits_boot : ∃ k k' : Kernel plainClient,
    plainKernel.after .plain Kernel.admits [.init, .start, .setLoopsPerTick 1600] = some k ∧
    Kernel.realTimeSleep .plain 11 1024 k = .ok () k' ∧ k'.tables.Sleeps .first 1 ∧
    (∃ loops < 1600, Kernel.realTimeSleep .plain 1 3000 k
      = .ok () { k with history := .spun loops :: k.history }) ∧
    Kernel.realTimeSleep .plain 1 1024 k = .error .coarseDenominator k := by
  have hchecks : (plainKernel.after .plain Kernel.admits [.init, .start, .setLoopsPerTick 1600]).any
      (fun k => k.started && decide (k.spawns < Word.top) && decide (k.decisions.length < Word.top) &&
        decide (Maskable.level k.cpu = .on) && decide (k.tables.idleRuns = false) &&
        decide (k.clock.loopsPerTick = 1600) && decide (k.clock.ticks = 0) &&
        decide (k.tables.current = some .first)) = true := by decide +kernel
  obtain ⟨k, hk, hchecks⟩ := (Option.any_eq_true _ _).mp hchecks
  simp only [Bool.and_eq_true, decide_eq_true_eq] at hchecks
  obtain ⟨⟨⟨⟨⟨⟨⟨hstarted, hspawns⟩, hdecisions⟩, hon⟩, hidle⟩, hloops⟩, hticks⟩, hcurrent⟩ := hchecks
  have hcourse : Course Course.decent plainKernel k := .of_run Hooks.queryOnly_plain
    (fun _ _ => Course.decent_of_orderly Hooks.queryOnly_plain) (Run.of_after hk)
  have hwaits := fun denom (hpos : 0 < denom) => rational_waits Hooks.queryOnly_plain
    Hooks.prompt_plain ofConfig_standard hcourse hstarted hspawns hdecisions hon hidle hpos
  obtain ⟨hwhole, _, hrefused, _⟩ := hwaits 1024 (by decide)
  obtain ⟨_, hserved, _, _⟩ := hwaits 3000 (by decide)
  obtain ⟨t, k', hc, hslept, hsleeps⟩ := hwhole 11 (by decide)
  obtain ⟨loops, hspun, hlt⟩ := hserved 1 (by decide) (by decide)
  rw [hticks] at hsleeps
  rw [hloops] at hlt
  obtain rfl : t = .first := Option.some.inj (hc.symm.trans hcurrent)
  exact ⟨k, k', hk, hslept, hsleeps, ⟨loops, hlt, hspun⟩, hrefused 1 (by decide) (by decide)⟩

/-- Not every denominator is served: after the boot, in thread context and with interrupts on, a 1024th of
a second is refused, while eleven of them are not. -/
theorem short_wait_refused : ∃ k k' : Kernel plainClient,
    plainKernel.after .plain Kernel.admits [.init, .start] = some k ∧ k.started = true ∧
    k.spawns < Word.top ∧ k.decisions.length < Word.top ∧ Maskable.level k.cpu = .on ∧
    k.inInterrupt = false ∧ k.tables.idleRuns = false ∧
    Kernel.realTimeSleep .plain 1 1024 k = .error .coarseDenominator k ∧
    Kernel.realTimeSleep .plain 11 1024 k = .ok () k' := by
  have hchecks : (plainKernel.after .plain Kernel.admits [.init, .start]).any
      (fun k => k.started && decide (k.spawns < Word.top) && decide (k.decisions.length < Word.top) &&
        decide (Maskable.level k.cpu = .on) && !k.inInterrupt &&
        decide (k.tables.idleRuns = false) && decide (k.clock.frequency = 100) &&
        (Kernel.realTimeSleep .plain 11 1024 k matches .ok () _)) = true := by decide +kernel
  obtain ⟨k, hk, hchecks⟩ := (Option.any_eq_true _ _).mp hchecks
  simp only [Bool.and_eq_true, decide_eq_true_eq, Bool.not_eq_true'] at hchecks
  obtain ⟨⟨⟨⟨⟨⟨⟨hstarted, hspawns⟩, hdecisions⟩, hon⟩, hcontext⟩, hidle⟩, hfrequency⟩, hslept⟩ := hchecks
  have hrefused : Kernel.realTimeSleep .plain 1 1024 k = .error .coarseDenominator k :=
    Kernel.realTimeSleep_of_not_dvd hon (by decide) (by rw [hfrequency]) (by decide)
  split at hslept
  · next k' hk' =>
    exact ⟨k, k', hk, hstarted, hspawns, hdecisions, hon, hcontext, hidle, hrefused, hk'⟩
  · cases hslept

end RoundRobin
