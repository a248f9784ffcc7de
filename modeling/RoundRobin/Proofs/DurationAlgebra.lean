import Mathlib.Algebra.Order.Monoid.Defs
import RoundRobin.Clock.Duration

/-!
# Durations add up

A duration is a number of nanoseconds that stops at the longest one. Whether it stops on the way or at
the end makes no difference, so `ofNanos` takes the addition of natural numbers to that of durations, and
each unit does too. The laws of addition that undo nothing come along: durations are a commutative monoid,
ordered by their nanoseconds.
-/

namespace RoundRobin.Duration

/-! ## From numbers to durations -/

theorem ofNanos_nanos (d : Duration) : ofNanos d.nanos = d := ext (Word.saturate_eq_self d.nanos_le)

/-- Every duration is a number of nanoseconds. -/
theorem ofNanos_surjective : Function.Surjective ofNanos := fun d => ⟨d.nanos, d.ofNanos_nanos⟩

theorem ofNanos_add (m n : Nat) : ofNanos m + ofNanos n = ofNanos (m + n) := ext (Word.saturate_add m n)

theorem Scale.factor_pos (scale : Scale) : 0 < scale.factor := by cases scale <;> decide

/-- The sum of two durations in one unit is that of the numbers, in this unit. -/
theorem of_add (scale : Scale) (m n : Nat) : of scale m + of scale n = of scale (m + n) := by
  unfold of
  rw [ofNanos_add, Nat.add_mul]

/-- A number may saturate before it is taken for a duration. -/
theorem of_saturate (scale : Scale) (n : Nat) : of scale (Word.saturate n) = of scale n :=
  ext (Word.saturate_mul n scale.factor_pos)

/-- Read in the unit in which it was given, a duration is the number, or as many as the longest holds. -/
theorem inScale_of (scale : Scale) (n : Nat) :
    (of scale n).inScale scale = min n (Word.top / scale.factor) :=
  Word.saturate_mul_div n scale.factor_pos

/-! ## The monoid -/

instance : Zero Duration := ⟨zero⟩

theorem ofNanos_zero : ofNanos 0 = 0 := rfl

instance : AddCommMonoid Duration where
  add_assoc a b c := by
    obtain ⟨l, rfl⟩ := ofNanos_surjective a
    obtain ⟨m, rfl⟩ := ofNanos_surjective b
    obtain ⟨n, rfl⟩ := ofNanos_surjective c
    rw [ofNanos_add, ofNanos_add, ofNanos_add, ofNanos_add, Nat.add_assoc]
  zero_add a := by
    obtain ⟨n, rfl⟩ := ofNanos_surjective a
    rw [← ofNanos_zero, ofNanos_add, Nat.zero_add]
  add_zero a := by
    obtain ⟨n, rfl⟩ := ofNanos_surjective a
    rw [← ofNanos_zero, ofNanos_add, Nat.add_zero]
  add_comm a b := by
    obtain ⟨m, rfl⟩ := ofNanos_surjective a
    obtain ⟨n, rfl⟩ := ofNanos_surjective b
    rw [ofNanos_add, ofNanos_add, Nat.add_comm]
  nsmul := nsmulRec

/-! ## The order -/

instance : PartialOrder Duration where
  le_refl a := Nat.le_refl a.nanos
  le_trans _ _ _ hab hbc := Nat.le_trans hab hbc
  le_antisymm _ _ hab hba := ext (Nat.le_antisymm hab hba)

theorem compare_ne_gt_iff (a b : Duration) : a.compare b ≠ .gt ↔ a ≤ b := Nat.compare_ne_gt

instance : IsOrderedAddMonoid Duration where
  add_le_add_left _ _ hab c := Word.saturate_mono (Nat.add_le_add_right hab c.nanos)

/-! ## All of it -/

/-- Durations are a commutative monoid in which all sums saturate, and addition keeps their order. A unit
takes saturating sums of numbers to sums of durations, and gives the numbers back, but for what saturates. -/
theorem saturating_monoid :
    (∀ scale m n, of scale m + of scale n = of scale (Word.saturate (m + n))) ∧
    (∀ a b : Duration, a + b = b + a) ∧
    (∀ a b c : Duration, a + b + c = a + (b + c)) ∧
    (∀ a : Duration, a + zero = a ∧ zero + a = a) ∧
    (∀ a b : Duration, a.compare b ≠ .gt ↔ a ≤ b) ∧
    (∀ a b c d : Duration, a ≤ b → c ≤ d → a + c ≤ b + d) ∧
    ∀ scale n, (of scale n).inScale scale = min n (Word.top / scale.factor) := by
  refine ⟨?_, add_comm, add_assoc, fun a => ⟨add_zero a, zero_add a⟩, compare_ne_gt_iff, ?_, inScale_of⟩
  · intro scale m n
    rw [of_saturate, of_add]
  · intro a b c d hab hcd
    exact add_le_add hab hcd

/-- One second more than fit is the longest duration, and no shorter than a millisecond and seven
nanoseconds. More milliseconds than fit come back as those that do. -/
theorem saturating_monoid_longest :
    of .secs 1 + of .secs 18446744073 = of .secs 18446744074 ∧ (of .secs 18446744074).nanos = Word.top ∧
    of .millis 1 ≤ of .secs 1 ∧ of .nanos 7 ≤ of .secs 18446744073 ∧
    of .millis 1 + of .nanos 7 ≤ of .secs 1 + of .secs 18446744073 ∧
    (of .millis Word.top).inScale .millis = 18446744073709 := by
  obtain ⟨hunit, _, _, _, _, hmono, hread⟩ := saturating_monoid
  have hmillis : of .millis 1 ≤ of .secs 1 := by decide
  have hnanos : of .nanos 7 ≤ of .secs 18446744073 := by decide
  exact ⟨hunit .secs 1 18446744073, by decide, hmillis, hnanos, hmono _ _ _ _ hmillis hnanos,
    hread .millis Word.top⟩

end RoundRobin.Duration
