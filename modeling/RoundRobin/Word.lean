/-!
# Machine words

The kernel counts in 64-bit and 32-bit words. Counts are natural numbers here, and this file holds
the two ways in which one of them meets the limit of its word without an error: it saturates
(`saturate`, conversions and deadlines) or it wraps (`wrap`, the counters of a page pool). A count
that may do neither is checked where it is raised.
-/

namespace RoundRobin.Word

/-- Largest 64-bit word. -/
abbrev top : Nat := 18446744073709551615

/-- Largest 32-bit word. -/
abbrev top32 : Nat := 4294967295

/-- The nearest 64-bit word to `n`. -/
def saturate (n : Nat) : Nat := min n top

/-- The 64-bit word that `n` leaves behind when its higher bits are lost. -/
def wrap (n : Nat) : Nat := n % (top + 1)

/-- The word after `n`, or zero after the last one. -/
def wrapSucc (n : Nat) : Nat := wrap (n + 1)

/-- The word before `n`, or the last one before zero. -/
def wrapPred (n : Nat) : Nat := wrap (n + top)

/-! ## What they do -/

theorem saturate_le (n : Nat) : saturate n ≤ top := Nat.min_le_right n top

theorem saturate_eq_self {n : Nat} (h : n ≤ top) : saturate n = n := Nat.min_eq_left h

theorem saturate_eq_top {n : Nat} (h : top ≤ n) : saturate n = top := Nat.min_eq_right h

theorem saturate_mono {m n : Nat} (h : m ≤ n) : saturate m ≤ saturate n := by
  unfold saturate; omega

/-- Where a sum ends does not depend on whether its parts have saturated before. -/
theorem saturate_add (m n : Nat) : saturate (saturate m + saturate n) = saturate (m + n) := by
  unfold saturate; omega

/-- Nor does it for a multiple. -/
theorem saturate_mul (n : Nat) {c : Nat} (hc : 0 < c) : saturate (saturate n * c) = saturate (n * c) := by
  rcases Nat.le_total n top with hle | hge
  · rw [saturate_eq_self hle]
  · have htop : top ≤ top * c := Nat.le_mul_of_pos_right top hc
    have hmul : top * c ≤ n * c := Nat.mul_le_mul_right c hge
    rw [saturate_eq_top hge, saturate_eq_top htop, saturate_eq_top (Nat.le_trans htop hmul)]

/-- A saturating multiple divided again is the number, or the greatest one that has its multiple. -/
theorem saturate_mul_div (n : Nat) {c : Nat} (hc : 0 < c) : saturate (n * c) / c = min n (top / c) := by
  by_cases hfits : n * c ≤ top
  · have hle : n ≤ top / c := (Nat.le_div_iff_mul_le hc).mpr hfits
    rw [saturate_eq_self hfits, Nat.min_eq_left hle, Nat.mul_div_cancel _ hc]
  · have hle : top / c ≤ n := by
      apply Nat.div_le_of_le_mul
      rw [Nat.mul_comm]
      omega
    rw [saturate_eq_top (by omega), Nat.min_eq_right hle]

theorem wrap_eq_self {n : Nat} (h : n ≤ top) : wrap n = n :=
  Nat.mod_eq_of_lt (Nat.lt_succ_of_le h)

theorem wrapSucc_eq {n : Nat} (h : n < top) : wrapSucc n = n + 1 := wrap_eq_self h

theorem wrapPred_eq {n : Nat} (h : 0 < n) (hn : n ≤ top) : wrapPred n = n - 1 := by
  unfold wrapPred wrap top at *; omega

end RoundRobin.Word
