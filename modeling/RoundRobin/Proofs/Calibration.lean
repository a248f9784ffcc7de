import Mathlib.Data.Nat.Size
import RoundRobin.Clock.Delay

/-!
# What calibration measures

On a clock of steady speed the calibrated number of turns is known exactly. The power of two below it
is found as it should be. The bits below that power are tried one by one and not together, so all of
them are kept from the first one that fits: what is left of the tick after the power of two is rounded
up to ones. The result therefore never falls short by as much as the last bit tried, and it may be more
than fits in a tick.
-/

namespace RoundRobin.Delay

-- Powers here are those of natural numbers themselves, whatever other powers are in scope.
attribute [local instance (high)] instPowNat

/-- A steady clock: `speed` turns of the loop fit in one tick, and not one more. -/
def fitsAt (speed turns : Nat) : Id Bool := pure (decide (turns ≤ speed))

variable {speed k w : Nat}

/-! ## The power of two -/

/-- Doubling stops at the last power of two that fits. -/
theorem lastFit_fitsAt (left : Nat) (hleft : left ≤ 21) (hlow : 2 ^ (31 - left) ≤ speed)
    (hhigh : speed < 2 ^ (31 : Nat)) : (lastFit (fitsAt speed) left).run = some speed.log2 := by
  induction left with
  | zero => exact absurd hlow (Nat.not_le_of_lt hhigh)
  | succ left ih =>
    have hstep : (lastFit (fitsAt speed) (left + 1)).run
        = if 2 ^ (31 - left) ≤ speed then (lastFit (fitsAt speed) left).run
          else some (30 - left) := by
      by_cases hfits : 2 ^ (31 - left) ≤ speed <;> simp [lastFit, fitsAt, hfits]
    rw [hstep]
    split
    · next hfits => exact ih (by omega) hfits
    · next hfits =>
      have hpos := Nat.two_pow_pos (31 - (left + 1))
      have hlog : speed.log2 = 31 - (left + 1) := by
        rw [Nat.log2_eq_iff (by omega)]
        refine ⟨hlow, ?_⟩
        rw [show 31 - (left + 1) + 1 = 31 - left by omega]
        exact Nat.lt_of_not_le hfits
      rw [hlog, show 31 - (left + 1) = 30 - left by omega]

/-! ## The bits below it -/

/-- Of the bits tried, those below the width of what is left of the tick are kept, all of them. -/
theorem refine_fitsAt (hw : ∀ j, 2 ^ k + 2 ^ j ≤ speed ↔ j < w) (bits : Nat) :
    (refine (fitsAt speed) k bits).run = 2 ^ min w (k - 9 + bits) - 2 ^ (k - 9) := by
  induction bits with
  | zero =>
    have hle : 2 ^ min w (k - 9) ≤ 2 ^ (k - 9) :=
      Nat.pow_le_pow_right (by decide) (Nat.min_le_right w (k - 9))
    exact (Nat.sub_eq_zero_of_le hle).symm
  | succ bits ih =>
    have hstep : (refine (fitsAt speed) k (bits + 1)).run
        = (if 2 ^ k + 2 ^ (k - 9 + bits) ≤ speed then 2 ^ (k - 9 + bits) else 0)
          + (refine (fitsAt speed) k bits).run := by
      by_cases hfits : 2 ^ k + 2 ^ (k - 9 + bits) ≤ speed <;> simp [refine, fitsAt, hfits]
    rw [hstep, ih]
    by_cases hlt : k - 9 + bits < w
    · -- a bit that fits by itself is added to all lower ones, which fit as well
      rw [if_pos ((hw _).mpr hlt), Nat.min_eq_right (Nat.le_of_lt hlt), ← Nat.add_assoc,
        Nat.min_eq_right (Nat.succ_le_of_lt hlt), Nat.pow_succ]
      have hle : 2 ^ (k - 9) ≤ 2 ^ (k - 9 + bits) :=
        Nat.pow_le_pow_right (by decide) (Nat.le_add_right _ _)
      omega
    · rw [if_neg (fun h => hlt ((hw _).mp h)), Nat.zero_add, Nat.min_eq_left (by omega),
        Nat.min_eq_left (by omega)]

/-! ## The result -/

/-- What is left of a tick after the largest power of two that fits in it. -/
def rest (speed : Nat) : Nat := speed - 2 ^ speed.log2

theorem two_pow_log2_add_rest (h : speed ≠ 0) : 2 ^ speed.log2 + rest speed = speed :=
  Nat.add_sub_cancel' (Nat.log2_self_le h)

theorem rest_lt (speed : Nat) : rest speed < 2 ^ speed.log2 := by
  have hlt : speed < 2 ^ (speed.log2 + 1) := Nat.lt_log2_self
  rw [Nat.pow_succ] at hlt
  have hpos := Nat.two_pow_pos speed.log2
  unfold rest
  omega

/-- Calibration rounds the rest of the tick up to ones, down to the ninth bit below the power of two. -/
theorem calibrate_fitsAt (hlow : 2 ^ (10 : Nat) ≤ speed) (hhigh : speed < 2 ^ (31 : Nat)) :
    (calibrate (fitsAt speed)).run
      = some (2 ^ speed.log2 + (2 ^ (rest speed).size - 2 ^ (speed.log2 - 9))) := by
  have hpos : speed ≠ 0 := by omega
  have hten : 10 ≤ speed.log2 := (Nat.le_log2 hpos).mpr hlow
  have hwidth : ∀ j, 2 ^ speed.log2 + 2 ^ j ≤ speed ↔ j < (rest speed).size := by
    intro j
    rw [Nat.lt_size]
    have := two_pow_log2_add_rest hpos
    omega
  have hsize : (rest speed).size ≤ speed.log2 := Nat.size_le.mpr (rest_lt speed)
  have hrefine := refine_fitsAt hwidth 9
  rw [Nat.sub_add_cancel (by omega), Nat.min_eq_left hsize] at hrefine
  have hlast := lastFit_fitsAt 21 (Nat.le_refl 21) hlow hhigh
  simp [calibrate, hlast, hrefine]

/-- A calibrated delay falls short of a tick by less than the last bit tried. It fits in the tick only
if what is left of the tick after the power of two comes within that bit of a power of two of its own,
and it runs over the tick by no more than what is left. -/
theorem calibrate_rounds_up (hlow : 2 ^ (10 : Nat) ≤ speed) (hhigh : speed < 2 ^ (31 : Nat)) :
    ∃ turns, (calibrate (fitsAt speed)).run = some turns ∧
      speed < turns + 2 ^ (speed.log2 - 9) ∧
      (turns ≤ speed ↔ 2 ^ (rest speed).size ≤ rest speed + 2 ^ (speed.log2 - 9)) ∧
      turns ≤ speed + rest speed := by
  refine ⟨_, calibrate_fitsAt hlow hhigh, ?_⟩
  have hpos : speed ≠ 0 := by omega
  have hsum := two_pow_log2_add_rest hpos
  have hsize : rest speed < 2 ^ (rest speed).size := Nat.lt_size_self _
  have hbit := Nat.two_pow_pos (speed.log2 - 9)
  refine ⟨by omega, by omega, ?_⟩
  by_cases hzero : rest speed = 0
  · rw [hzero, Nat.size_zero]
    omega
  · -- the power of two above the rest is at most twice the rest
    have hhalf : 2 ^ ((rest speed).size - 1) ≤ rest speed :=
      Nat.lt_size.mp (Nat.sub_one_lt (by rwa [ne_eq, Nat.size_eq_zero]))
    have hdouble : 2 ^ (rest speed).size = 2 * 2 ^ ((rest speed).size - 1) := by
      have hwidth : 0 < (rest speed).size := Nat.size_pos.mpr (Nat.pos_of_ne_zero hzero)
      rw [← Nat.pow_succ', Nat.succ_eq_add_one, Nat.sub_add_cancel hwidth]
    omega

/-- With 1600 turns to a tick there are 576 left after 1024, and the result is above 1598 and no more
than 2176. -/
theorem calibrate_rounds_up_1600 : 2 ^ (10 : Nat) ≤ 1600 ∧ 1600 < 2 ^ (31 : Nat) ∧ ∃ turns,
    (calibrate (fitsAt 1600)).run = some turns ∧ 1600 < turns + 2 ^ (Nat.log2 1600 - 9) ∧
      turns ≤ 1600 + rest 1600 := by
  obtain ⟨turns, hturns, hshort, _, hover⟩ :=
    @calibrate_rounds_up 1600 (by decide) (by decide)
  exact ⟨by decide, by decide, turns, hturns, hshort, hover⟩

/-- Calibration may give more turns than fit in a tick: 512 fit beside 1024, and so do 256, but not
both. -/
theorem calibrate_overshoots : 2 ^ (10 : Nat) ≤ 1600 ∧ 1600 < 2 ^ (31 : Nat) ∧
    ¬ ∃ turns, (calibrate (fitsAt 1600)).run = some turns ∧ turns ≤ 1600 := by
  have hcalibrate : (calibrate (fitsAt 1600)).run = some 2046 := by decide
  refine ⟨by decide, by decide, ?_⟩
  rintro ⟨turns, hturns, hle⟩
  rw [hcalibrate, Option.some.injEq] at hturns
  omega

end RoundRobin.Delay
