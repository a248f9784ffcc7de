import RoundRobin.Proofs.Conversions
import RoundRobin.Proofs.Kernel.Course
import RoundRobin.Proofs.Sleeping

/-!
# Waits agree in every unit

A wait of a tick and more is a sleep, a shorter one is spent in the delay loop. One formula says how many
ticks a wait takes and another how many turns of the loop, and both round down. The number of ticks does
not depend on the unit. The number of turns does not either below the millisecond; in milliseconds the
scaling loses some of them. It never comes to the turns of a whole tick.
-/

namespace RoundRobin

variable {C : Client} {hooks : Hooks C} {k k' k₀ : Kernel C}

/-! ## Ticks -/

namespace Clock

/-- A deadline saturates, so a number of ticks may have saturated before. -/
theorem deadline_saturate (c : Clock) (ticks : Nat) :
    c.deadline (Word.saturate ticks) = min (c.ticks + ticks) Word.top := by
  unfold deadline Word.saturate
  omega

end Clock

/-! ## Turns of the delay loop -/

namespace Delay

variable {loopsPerTick frequency num denom loops : Nat}

/-- Scaling loses nothing when a thousand divides the numerator as well. -/
theorem subTickLoops_thousands (loopsPerTick frequency num : Nat) {denom : Nat} (hdenom : 0 < denom) :
    subTickLoops loopsPerTick frequency (1000 * num) (1000 * denom)
      = .ok (Word.saturate (loopsPerTick * num * frequency / denom)) := by
  have hnum : loopsPerTick * (1000 * num) / 1000 = loopsPerTick * num := by
    rw [Nat.mul_left_comm, Nat.mul_div_cancel_left _ (by decide)]
  unfold subTickLoops
  rw [Nat.mul_mod_right, Nat.mul_div_cancel_left _ (by decide), hnum,
    if_neg (not_not_intro rfl), if_neg (Nat.ne_of_gt hdenom)]

/-- Below the millisecond the number of turns is that of the length as well. -/
theorem subTickLoops_scale {s : Nat} (hs : 0 < s) (num : Nat) (hdenom : 0 < denom) :
    subTickLoops loopsPerTick frequency (1000 * (s * num)) (1000 * (s * denom))
      = subTickLoops loopsPerTick frequency (1000 * num) (1000 * denom) := by
  have hcancel : loopsPerTick * (s * num) * frequency / (s * denom)
      = loopsPerTick * num * frequency / denom := by
    rw [Nat.mul_left_comm, Nat.mul_assoc s, Nat.mul_div_mul_left _ _ hs]
  rw [subTickLoops_thousands _ _ _ (Nat.mul_pos hs hdenom), subTickLoops_thousands _ _ _ hdenom,
    hcancel]

/-- Rounding at every step gives no more than rounding once. -/
theorem le_of_subTickLoops (h : subTickLoops loopsPerTick frequency num denom = .ok loops) :
    loops ≤ loopsPerTick * num * frequency / denom := by
  unfold subTickLoops at h
  split at h
  · cases h
  next hcoarse =>
  split at h
  · cases h
  cases h
  -- a thousand divides the denominator
  have hdenom : 1000 * (denom / 1000) = denom :=
    Nat.mul_div_cancel' (Nat.dvd_of_mod_eq_zero (Classical.not_not.mp hcoarse))
  calc Word.saturate (loopsPerTick * num / 1000 * frequency / (denom / 1000))
      ≤ loopsPerTick * num / 1000 * frequency / (denom / 1000) := Nat.min_le_left _ _
    _ ≤ frequency * (loopsPerTick * num) / 1000 / (denom / 1000) := by
      rw [Nat.mul_comm _ frequency]
      exact Nat.div_le_div_right (Nat.mul_div_le_mul_div_assoc _ _ _)
    _ = loopsPerTick * num * frequency / denom := by
      rw [Nat.div_div_eq_div_mul, hdenom, Nat.mul_comm frequency]

/-- A part of a tick takes a part of its turns. -/
theorem turns_lt (loopsPerTick : Nat) (h : num * frequency < denom) :
    loopsPerTick * num * frequency / denom < max loopsPerTick 1 := by
  have hdenom : 0 < denom := Nat.lt_of_le_of_lt (Nat.zero_le _) h
  rw [Nat.div_lt_iff_lt_mul hdenom, Nat.mul_assoc]
  calc loopsPerTick * (num * frequency)
      ≤ max loopsPerTick 1 * (num * frequency) := Nat.mul_le_mul_right _ (Nat.le_max_left _ _)
    _ < max loopsPerTick 1 * denom :=
      Nat.mul_lt_mul_of_pos_left h (Nat.lt_of_lt_of_le Nat.one_pos (Nat.le_max_right _ _))

end Delay

/-! ## One length, several units -/

namespace Kernel

open Act

/-- Two ways to give a length that come to as many ticks and to as many turns are one. -/
theorem realTimeSleep_congr_length {num denom num' denom' : Nat}
    (hticks : ∀ c : Clock, c.toTicks num denom = c.toTicks num' denom')
    (hloops : ∀ loopsPerTick frequency, Delay.subTickLoops loopsPerTick frequency num denom
      = Delay.subTickLoops loopsPerTick frequency num' denom') (hooks : Hooks C) :
    realTimeSleep hooks num denom = realTimeSleep hooks num' denom' := by
  unfold realTimeSleep
  simp only [hticks, hloops]

theorem sleepNanos_thousand (hooks : Hooks C) (n : Nat) :
    sleepNanos hooks (1000000 * n) = sleepMicros hooks (1000 * n) := by
  have hnum : 1000000 * n = 1000 * (1000 * n) := by omega
  rw [sleepNanos, sleepMicros, hnum]
  exact realTimeSleep_congr_length (fun c => c.toTicks_scale (by decide) (1000 * n) 1000000)
    (fun _ _ => Delay.subTickLoops_scale (by decide) n (show 0 < 1000 by decide)) hooks

theorem sleepFor_millis (hooks : Hooks C) {n : Nat} (hn : n * 1000000 ≤ Word.top) :
    sleepFor hooks (.of .millis n) = sleepMicros hooks (1000 * n) := by
  have hnanos : (Duration.of .millis n).nanos = 1000000 * n := by
    rw [Duration.nanos_of]
    exact (Word.saturate_eq_self hn).trans (Nat.mul_comm _ _)
  rw [sleepFor, hnanos, sleepNanos_thousand]

/-! ## Sleeping or turning -/

/-- A wait of a tick and more is a sleep, -/
theorem realTimeSleep_of_ticks {num denom ticks : Nat} (hon : Maskable.level k.cpu = .on)
    (hticks : k.clock.toTicks num denom = .ok ticks) (hpos : 0 < ticks) :
    realTimeSleep hooks num denom k = sleep hooks ticks k := by
  unfold realTimeSleep
  rw [get_bind, hticks]
  refine (bind_of_ok (orFault_ok ticks k)).trans ?_
  rw [bind_of_ok (requireUnmasked_eq_ok_iff.mpr ⟨hon, rfl⟩ : _ = EStateM.Result.ok () k),
    if_pos hpos]

/-- and a shorter one leaves its turns in the history, and nothing else. -/
theorem realTimeSleep_of_loops {num denom loops : Nat} (hon : Maskable.level k.cpu = .on)
    (hticks : k.clock.toTicks num denom = .ok 0)
    (hloops : Delay.subTickLoops k.clock.loopsPerTick k.clock.frequency num denom = .ok loops) :
    realTimeSleep hooks num denom k = .ok () { k with history := .spun loops :: k.history } := by
  unfold realTimeSleep
  rw [get_bind, hticks, hloops]
  refine (bind_of_ok (orFault_ok 0 k)).trans ?_
  rw [bind_of_ok (requireUnmasked_eq_ok_iff.mpr ⟨hon, rfl⟩ : _ = EStateM.Result.ok () k),
    if_neg (Nat.lt_irrefl 0)]
  exact bind_of_ok (orFault_ok loops k)

/-- A thread that may sleep does so until the deadline. -/
theorem sleeps_of_sleep (hq : hooks.QueryOnly) (hp : hooks.Prompt) (h : k.core.Able)
    (hon : Maskable.level k.cpu = .on) (hidle : k.tables.idleRuns = false) (ticks : Nat) :
    ∃ t k', k.tables.current = some t ∧ sleep hooks ticks k = .ok () k' ∧
      k'.tables.Sleeps t (k.clock.deadline ticks) := by
  have hends := sleep_ends hq hp h ticks
  rw [hon, hidle] at hends
  obtain ⟨_, k', hsleep⟩ := hends
  obtain ⟨d, u, hleave, hcore⟩ := core_of_sleep hq hsleep
  refine ⟨d.previous, k', (Tables.parting_of_leave hleave).previous, hsleep, ?_⟩
  rw [show k'.tables = u from congrArg Core.tables hcore]
  exact (h.readable.sound.leave hleave).sleeps (Tables.registered_of_leave hleave)

theorem frequency_of_ofConfig {config : Config} {client : C.State}
    (h : Kernel.ofConfig config client = .ok k) : k.clock.frequency = config.timerHz := by
  obtain ⟨_, _, rfl⟩ := eq_of_ofConfig h
  rfl

end Kernel

/-! ## The wrappers -/

/-- Waits for as many milliseconds, microseconds, nanoseconds, or for a duration of that length, all sleep
until the same tick and leave the same kernel, or all turn the delay loop and leave the scheduler as it
was. In milliseconds the turns may be fewer, and in no unit are they those of a whole tick. -/
theorem sleep_wrappers_agree {config : Config} {client : C.State} {n : Nat} (hq : hooks.QueryOnly)
    (hp : hooks.Prompt) (h₀ : Kernel.ofConfig config client = .ok k₀)
    (h : Course Course.decent k₀ k) (hstarted : k.started = true) (hspawns : k.spawns < Word.top)
    (hdecisions : k.decisions.length < Word.top) (hon : Maskable.level k.cpu = .on)
    (hidle : k.tables.idleRuns = false) (hloops : k.clock.loopsPerTick ≤ Word.top32)
    (hn : n * 1000000 ≤ Word.top) :
    (0 < n * config.timerHz / 1000 → ∃ t k', k.tables.current = some t ∧
      Kernel.sleepMillis hooks n k = .ok () k' ∧
      Kernel.sleepMicros hooks (1000 * n) k = .ok () k' ∧
      Kernel.sleepNanos hooks (1000000 * n) k = .ok () k' ∧
      Kernel.sleepFor hooks (.of .millis n) k = .ok () k' ∧
      k'.tables.Sleeps t (min (k.clock.ticks + n * config.timerHz / 1000) Word.top)) ∧
    (n * config.timerHz / 1000 = 0 → ∃ coarse fine,
      Kernel.sleepMillis hooks n k = .ok () { k with history := .spun coarse :: k.history } ∧
      Kernel.sleepMicros hooks (1000 * n) k = .ok () { k with history := .spun fine :: k.history } ∧
      Kernel.sleepNanos hooks (1000000 * n) k
        = .ok () { k with history := .spun fine :: k.history } ∧
      Kernel.sleepFor hooks (.of .millis n) k
        = .ok () { k with history := .spun fine :: k.history } ∧
      coarse ≤ fine ∧ fine = k.clock.loopsPerTick * n * config.timerHz / 1000 ∧
      fine < max k.clock.loopsPerTick 1) := by
  have hfrequency : k.clock.frequency = config.timerHz :=
    h.frequency_eq.trans (Kernel.frequency_of_ofConfig h₀)
  rw [← hfrequency, Kernel.sleepNanos_thousand, Kernel.sleepFor_millis hooks hn]
  have hmillis := k.clock.toTicks_eq_ok n (show 0 < 1000 by decide)
  have hmicros : k.clock.toTicks (1000 * n) 1000000
      = .ok (Word.saturate (n * k.clock.frequency / 1000)) :=
    (k.clock.toTicks_scale (by decide) n 1000).trans hmillis
  constructor
  · intro hwhole
    have hpos : 0 < Word.saturate (n * k.clock.frequency / 1000) :=
      Nat.lt_min.mpr ⟨hwhole, by decide⟩
    obtain ⟨t, k', hc, hsleep, hsleeps⟩ := Kernel.sleeps_of_sleep hq hp
      (h.able h₀ hstarted hspawns hdecisions) hon hidle (Word.saturate (n * k.clock.frequency / 1000))
    have hcoarse : Kernel.sleepMillis hooks n k = .ok () k' :=
      (Kernel.realTimeSleep_of_ticks hon hmillis hpos).trans hsleep
    have hfine : Kernel.sleepMicros hooks (1000 * n) k = .ok () k' :=
      (Kernel.realTimeSleep_of_ticks hon hmicros hpos).trans hsleep
    rw [Clock.deadline_saturate] at hsleeps
    exact ⟨t, k', hc, hcoarse, hfine, hfine, hfine, hsleeps⟩
  · intro hsub
    rw [hsub] at hmillis hmicros
    have hlt : n * k.clock.frequency < 1000 :=
      (Nat.div_eq_zero_iff.mp hsub).resolve_left (by decide)
    have hturns := Delay.turns_lt k.clock.loopsPerTick hlt
    -- so few turns fit a word
    have hword : max k.clock.loopsPerTick 1 ≤ Word.top :=
      Nat.max_le.mpr ⟨Nat.le_trans hloops (by decide), by decide⟩
    have hfits : Word.saturate (k.clock.loopsPerTick * n * k.clock.frequency / 1000)
        = k.clock.loopsPerTick * n * k.clock.frequency / 1000 :=
      Word.saturate_eq_self (Nat.le_of_lt (Nat.lt_of_lt_of_le hturns hword))
    have hfine := Delay.subTickLoops_thousands k.clock.loopsPerTick k.clock.frequency n
      (show 0 < 1000 by decide)
    rw [hfits] at hfine
    have hcoarse : Delay.subTickLoops k.clock.loopsPerTick k.clock.frequency n 1000
        = .ok (Word.saturate (k.clock.loopsPerTick * n / 1000 * k.clock.frequency / 1)) := rfl
    have hspun : Kernel.sleepMicros hooks (1000 * n) k = .ok () { k with
        history := .spun (k.clock.loopsPerTick * n * k.clock.frequency / 1000) :: k.history } :=
      Kernel.realTimeSleep_of_loops hon hmicros hfine
    exact ⟨_, _, Kernel.realTimeSleep_of_loops hon hmillis hcoarse, hspun, hspun, hspun,
      Delay.le_of_subTickLoops hcoarse, rfl, hturns⟩

/-- At a hundred ticks a second and 1600 turns a tick the thread that booted sleeps for 25 milliseconds,
which are two ticks and a half, and turns the loop for 9. -/
theorem sleep_wrappers_agree_boot : ∃ k k' : Kernel plainClient,
    plainKernel.after .plain Kernel.admits [.init, .start, .setLoopsPerTick 1600] = some k ∧
    Kernel.sleepMillis .plain 25 k = .ok () k' ∧ Kernel.sleepNanos .plain 25000000 k = .ok () k' ∧
    k'.tables.Sleeps .first 2 ∧
    Kernel.sleepMicros .plain 9000 k = .ok () { k with history := .spun 1440 :: k.history } ∧
    ∃ coarse ≤ 1440, Kernel.sleepMillis .plain 9 k
      = .ok () { k with history := .spun coarse :: k.history } := by
  have hchecks : (plainKernel.after .plain Kernel.admits [.init, .start, .setLoopsPerTick 1600]).any
      (fun k => k.started && decide (k.spawns < Word.top) && decide (k.decisions.length < Word.top) &&
        decide (Maskable.level k.cpu = .on) && decide (k.tables.idleRuns = false) &&
        decide (k.clock.loopsPerTick = 1600) && decide (k.clock.ticks = 0) &&
        decide (k.tables.current = some .first)) = true := by decide +kernel
  obtain ⟨k, hk, hchecks⟩ := (Option.any_eq_true _ _).mp hchecks
  simp only [Bool.and_eq_true, decide_eq_true_eq] at hchecks
  obtain ⟨⟨⟨⟨⟨⟨⟨hstarted, hspawns⟩, hdecisions⟩, hon⟩, hidle⟩, hloops⟩, hticks⟩, hcurrent⟩ := hchecks
  have hcourse : Course Course.decent plainKernel k := .of_run Hooks.queryOnly_plain
    (fun _ _ => Course.decent_of_orderly Hooks.queryOnly_plain) (Run.of_after hk)
  have hagree := fun n (hn : n * 1000000 ≤ Word.top) => sleep_wrappers_agree Hooks.queryOnly_plain
    Hooks.prompt_plain ofConfig_standard hcourse hstarted hspawns hdecisions hon hidle
    (hloops ▸ (by decide)) hn
  obtain ⟨t, k', hc, hmillis, _, hnanos, _, hsleeps⟩ := (hagree 25 (by decide)).1 (by decide)
  obtain ⟨coarse, fine, hcoarse, hfine, _, _, hle, hturns, _⟩ := (hagree 9 (by decide)).2 (by decide)
  rw [hloops] at hturns
  rw [hticks] at hsleeps
  obtain rfl : t = .first := Option.some.inj (hc.symm.trans hcurrent)
  obtain rfl : fine = 1440 := hturns
  exact ⟨k, k', hk, hmillis, hnanos, hsleeps, hfine, coarse, hle, hcoarse⟩

end RoundRobin
