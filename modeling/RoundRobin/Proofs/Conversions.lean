import RoundRobin.Clock.Counter

/-!
# Ticks and nanoseconds

A tick is taken for a whole number of nanoseconds. From ticks to nanoseconds and back nothing is lost
but what saturates; the other way round only the part of a tick is lost, and nothing saturates. Reckoned
by the rate, the same nanoseconds never come to more ticks. The two reckonings agree everywhere only if
the rate divides the second into whole nanoseconds: at any other rate one tick's worth of nanoseconds is
short of a tick.
-/

namespace RoundRobin.Clock

variable {c : Clock} {nanos ticks : Nat}

theorem nanosPerTick_pos (hpos : 0 < c.frequency) (hle : c.frequency ≤ nanosPerSecond) :
    0 < c.nanosPerTick := Nat.div_pos hle hpos

theorem nanosToTicks_eq_ok (h : 0 < c.nanosPerTick) (nanos : Nat) :
    c.nanosToTicks nanos = .ok (nanos / c.nanosPerTick) := by
  unfold nanosToTicks
  rw [if_neg (by omega)]

/-- The number of ticks is that of the length, in whatever unit it is given. -/
theorem toTicks_scale (c : Clock) {s : Nat} (hs : 0 < s) (num denom : Nat) :
    c.toTicks (s * num) (s * denom) = c.toTicks num denom := by
  unfold toTicks
  rw [Nat.mul_assoc, Nat.mul_div_mul_left _ _ hs]
  simp only [Nat.mul_eq_zero, Nat.ne_of_gt hs, false_or]

/-! ## There and back -/

/-- Ticks come back, up to the longest time that a word of nanoseconds holds. -/
theorem ticksToNanos_div (h : 0 < c.nanosPerTick) (ticks : Nat) :
    c.ticksToNanos ticks / c.nanosPerTick = min ticks (Word.top / c.nanosPerTick) :=
  Word.saturate_mul_div ticks h

/-- Whole ticks of nanoseconds that fit a word fit it too. -/
theorem div_mul_nanosPerTick_le (h : nanos ≤ Word.top) :
    nanos / c.nanosPerTick * c.nanosPerTick ≤ Word.top :=
  Nat.le_trans (Nat.div_mul_le_self nanos _) h

/-- Of nanoseconds only the part of a tick is lost. -/
theorem ticksToNanos_of_div (h : nanos ≤ Word.top) :
    c.ticksToNanos (nanos / c.nanosPerTick) = nanos - nanos % c.nanosPerTick := by
  have hsplit : c.nanosPerTick * (nanos / c.nanosPerTick) + nanos % c.nanosPerTick = nanos :=
    Nat.div_add_mod nanos c.nanosPerTick
  rw [Nat.mul_comm] at hsplit
  unfold ticksToNanos
  rw [Word.saturate_eq_self (div_mul_nanosPerTick_le h)]
  omega

/-! ## By the rate -/

/-- As many ticks as there are in a second do not take more than a second, -/
theorem nanosPerTick_mul_frequency_le (c : Clock) :
    c.nanosPerTick * c.frequency ≤ nanosPerSecond := Nat.div_mul_le_self _ _

/-- so the ticks reckoned by the rate are no more than those reckoned by the tick. -/
theorem mul_frequency_div_le (h : 0 < c.nanosPerTick) (nanos : Nat) :
    nanos * c.frequency / nanosPerSecond ≤ nanos / c.nanosPerTick := by
  rw [Nat.le_div_iff_mul_le h]
  -- that many ticks take no more than `nanos`, a thousand million times over
  refine Nat.le_of_mul_le_mul_right (c := nanosPerSecond) ?_ (by decide)
  calc nanos * c.frequency / nanosPerSecond * c.nanosPerTick * nanosPerSecond
      = nanos * c.frequency / nanosPerSecond * nanosPerSecond * c.nanosPerTick :=
        Nat.mul_right_comm _ _ _
    _ ≤ nanos * c.frequency * c.nanosPerTick := Nat.mul_le_mul_right _ (Nat.div_mul_le_self _ _)
    _ = nanos * (c.nanosPerTick * c.frequency) := by rw [Nat.mul_assoc, Nat.mul_comm c.frequency]
    _ ≤ nanos * nanosPerSecond := Nat.mul_le_mul_left _ c.nanosPerTick_mul_frequency_le

/-- At a rate that divides the second the two reckonings are one, -/
theorem mul_frequency_div_of_dvd (hpos : 0 < c.frequency) (hdvd : c.frequency ∣ nanosPerSecond)
    (nanos : Nat) : nanos * c.frequency / nanosPerSecond = nanos / c.nanosPerTick := by
  have hsecond : c.nanosPerTick * c.frequency = nanosPerSecond := Nat.div_mul_cancel hdvd
  rw [← hsecond, Nat.mul_div_mul_right _ _ hpos]

/-- and at any other rate the nanoseconds of one tick are none by the rate. -/
theorem nanosPerTick_mul_frequency_lt (hdvd : ¬ c.frequency ∣ nanosPerSecond) :
    c.nanosPerTick * c.frequency < nanosPerSecond := by
  have hne : c.nanosPerTick * c.frequency ≠ nanosPerSecond := fun heq =>
    hdvd ⟨c.nanosPerTick, by rw [← heq, Nat.mul_comm]⟩
  have hle := c.nanosPerTick_mul_frequency_le
  omega

theorem toTicks_nanos (h : 0 < c.nanosPerTick) (hnanos : nanos ≤ Word.top) :
    c.toTicks nanos nanosPerSecond = .ok (nanos * c.frequency / nanosPerSecond) := by
  rw [toTicks_eq_ok c nanos (by decide), Word.saturate_eq_self]
  calc nanos * c.frequency / nanosPerSecond
      ≤ nanos / c.nanosPerTick := mul_frequency_div_le h nanos
    _ ≤ nanos := Nat.div_le_self _ _
    _ ≤ Word.top := hnanos

/-- The two reckonings agree on every word of nanoseconds just if the rate divides the second. -/
theorem toTicks_eq_nanosToTicks_iff (hpos : 0 < c.frequency) (hle : c.frequency ≤ nanosPerSecond) :
    (∀ nanos ≤ Word.top, c.toTicks nanos nanosPerSecond = c.nanosToTicks nanos)
      ↔ c.frequency ∣ nanosPerSecond := by
  have htick : 0 < c.nanosPerTick := nanosPerTick_pos hpos hle
  constructor
  · intro hagree
    apply Decidable.byContradiction
    intro hdvd
    have hword : c.nanosPerTick ≤ Word.top :=
      Nat.le_trans (Nat.div_le_self _ _) (by decide)
    have hone := hagree c.nanosPerTick hword
    rw [toTicks_nanos htick hword, nanosToTicks_eq_ok htick, Nat.div_self htick,
      Nat.div_eq_of_lt (nanosPerTick_mul_frequency_lt hdvd)] at hone
    cases hone
  · intro hdvd nanos hnanos
    rw [toTicks_nanos htick hnanos, nanosToTicks_eq_ok htick, mul_frequency_div_of_dvd hpos hdvd]

/-! ## All of it -/

/-- Ticks come back from nanoseconds unless they saturate, nanoseconds from ticks but for the part of a
tick. By the rate there are never more ticks, and as many everywhere just if the rate divides the second.
The unit of a length does not matter to its ticks. -/
theorem conversions_agree (c : Clock) (hpos : 0 < c.frequency) (hle : c.frequency ≤ nanosPerSecond) :
    (∀ ticks ≤ Word.top, c.nanosToTicks (c.ticksToNanos ticks)
      = .ok (min ticks (Word.top / c.nanosPerTick))) ∧
    (∀ nanos ≤ Word.top, ∃ ticks, c.nanosToTicks nanos = .ok ticks ∧
      ticks * c.nanosPerTick ≤ Word.top ∧ c.ticksToNanos ticks = nanos - nanos % c.nanosPerTick) ∧
    (∀ nanos ≤ Word.top, ∃ coarse fine, c.toTicks nanos nanosPerSecond = .ok coarse ∧
      c.nanosToTicks nanos = .ok fine ∧ coarse ≤ fine) ∧
    ((∀ nanos ≤ Word.top, c.toTicks nanos nanosPerSecond = c.nanosToTicks nanos)
      ↔ c.frequency ∣ nanosPerSecond) ∧
    ∀ scale num denom, 1 ≤ scale → 1 ≤ denom → scale * num ≤ Word.top → scale * denom ≤ Word.top →
      c.toTicks (scale * num) (scale * denom) = c.toTicks num denom := by
  have htick : 0 < c.nanosPerTick := nanosPerTick_pos hpos hle
  refine ⟨?_, ?_, ?_, toTicks_eq_nanosToTicks_iff hpos hle, ?_⟩
  · intro ticks _
    rw [nanosToTicks_eq_ok htick, ticksToNanos_div htick]
  · intro nanos hnanos
    exact ⟨_, nanosToTicks_eq_ok htick nanos, div_mul_nanosPerTick_le hnanos,
      ticksToNanos_of_div hnanos⟩
  · intro nanos hnanos
    exact ⟨_, _, toTicks_nanos htick hnanos, nanosToTicks_eq_ok htick nanos,
      mul_frequency_div_le htick nanos⟩
  · intro scale num denom hscale _ _ _
    exact c.toTicks_scale hscale num denom

/-- At three ticks a second a tick is taken for 333333333 nanoseconds, a third of one too few. The longest
time of a word comes back as 55340232276 ticks, and the two reckonings do not agree. -/
theorem conversions_agree_three : 0 < (⟨3, 0, 0⟩ : Clock).frequency ∧
    (⟨3, 0, 0⟩ : Clock).frequency ≤ nanosPerSecond ∧
    (⟨3, 0, 0⟩ : Clock).nanosToTicks ((⟨3, 0, 0⟩ : Clock).ticksToNanos Word.top) = .ok 55340232276 ∧
    (⟨3, 0, 0⟩ : Clock).toTicks 7 21 = (⟨3, 0, 0⟩ : Clock).toTicks 1 3 ∧
    ¬ ∀ nanos ≤ Word.top, (⟨3, 0, 0⟩ : Clock).toTicks nanos nanosPerSecond
      = (⟨3, 0, 0⟩ : Clock).nanosToTicks nanos := by
  obtain ⟨hback, _, _, hiff, hscale⟩ := conversions_agree ⟨3, 0, 0⟩ (by decide) (by decide)
  refine ⟨by decide, by decide, ?_, ?_, ?_⟩
  · rw [hback Word.top (by decide)]
    rfl
  · exact hscale 7 1 3 (by decide) (by decide) (by decide) (by decide)
  · rw [hiff]
    decide

end RoundRobin.Clock
