import RoundRobin.Proofs.Inquiry

/-!
# Calibration in registers

Calibration counts in registers of 32 bits. One register is doubled until the turns in it no longer fit,
or until its only bit has fallen out. Then a second one runs down the bits below, and those that fit are
set in the first. Both loops end on what their registers hold and not on a count of steps, so that they
end at all, and where, rests on the power of two that the first one stopped at. Here the registers are
run against the inquiry: they ask its questions, whatever the answers, and end with its result.
-/

namespace RoundRobin.Delay

-- Powers here are those of natural numbers themselves, whatever other powers are in scope.
attribute [local instance (high)] instPowNat

/-- Where calibration stands. A register `loops` is being doubled; or bits are being set in it below
`high`, of which `test` is to be tried now; or all is over. -/
inductive Search where
  | doubling (loops : BitVec 32)
  | refining (high test loops : BitVec 32)
  | measured (loops : BitVec 32)
  | overflowed

namespace Search

variable {k e n bits left : Nat} {loops : BitVec 32}

/-- The first loop goes on unless the bit has fallen out. -/
def double (loops : BitVec 32) : Search :=
  if loops <<< 1 = 0 then overflowed else doubling loops

/-- The second loop goes on until it comes to the tenth bit below `high`. -/
def descend (high test loops : BitVec 32) : Search :=
  if test = high >>> 10 then measured loops else refining high test loops

def start : Search := double (1 <<< 10)

/-- The turns that are asked about. -/
def question? : Search → Option Nat
  | doubling loops => some (loops <<< 1).toNat
  | refining high test _ => some (high ||| test).toNat
  | measured _ => none
  | overflowed => none

/-- Goes on from an answer. -/
def next : Search → Bool → Search
  | doubling loops, true => double (loops <<< 1)
  | doubling loops, false => descend loops (loops >>> 1) loops
  | refining high test loops, true => descend high (test >>> 1) (loops ||| test)
  | refining high test loops, false => descend high (test >>> 1) loops
  | measured loops, _ => measured loops
  | overflowed, _ => overflowed

/-- No bit is lost in a shift that may be made next. -/
def Exact : Search → Prop
  | doubling loops => (loops <<< 1).toNat = 2 * loops.toNat ∧ loops.toNat = 2 * (loops >>> 1).toNat ∧
      loops.toNat = 1024 * (loops >>> 10).toNat
  | refining high test _ => test.toNat = 2 * (test >>> 1).toNat ∧ high.toNat = 1024 * (high >>> 10).toNat
  | measured _ => True
  | overflowed => True

/-- The registers ask the questions of an inquiry and end with its result, and lose no bit before they
end. -/
inductive Follows : Search → Inquiry (Option Nat) → Prop where
  | overflowed : Follows overflowed (.done none)
  | measured (loops : BitVec 32) : Follows (measured loops) (.done (some loops.toNat))
  | asks {s : Search} {turns : Nat} {rest : Bool → Inquiry (Option Nat)}
      (hquestion : s.question? = some turns) (hexact : s.Exact)
      (hrest : ∀ fits, Follows (s.next fits) (rest fits)) : Follows s (.ask turns rest)

/-! ## Registers with a single bit -/

theorem toNat_bit (he : e < 32) : (BitVec.twoPow 32 e).toNat = 2 ^ e := by
  rw [BitVec.toNat_twoPow]
  exact Nat.mod_eq_of_lt (Nat.pow_lt_pow_right (by decide) he)

theorem bit_shiftLeft (e : Nat) : BitVec.twoPow 32 e <<< 1 = BitVec.twoPow 32 (e + 1) := by
  rw [BitVec.twoPow_eq, BitVec.twoPow_eq, BitVec.shiftLeft_add]

theorem bit_shiftRight (he : e < 32) (hn : n ≤ e) :
    BitVec.twoPow 32 e >>> n = BitVec.twoPow 32 (e - n) := by
  apply BitVec.eq_of_toNat_eq
  rw [BitVec.toNat_ushiftRight, toNat_bit he, toNat_bit (by omega), Nat.shiftRight_eq_div_pow,
    Nat.pow_div hn (by decide)]

/-- A bit that is shifted down by no more than its place is not lost. -/
theorem bit_exact (he : e < 32) (hn : n ≤ e) :
    (BitVec.twoPow 32 e).toNat = 2 ^ n * (BitVec.twoPow 32 e >>> n).toNat := by
  rw [bit_shiftRight he hn, toNat_bit he, toNat_bit (by omega), ← Nat.pow_add,
    Nat.add_sub_cancel' hn]

/-- A bit below all that are set is added by setting it. -/
theorem toNat_or_bit (he : e < 32) (hdvd : 2 ^ (e + 1) ∣ loops.toNat) :
    (loops ||| BitVec.twoPow 32 e).toNat = loops.toNat + 2 ^ e := by
  obtain ⟨a, ha⟩ := hdvd
  rw [BitVec.toNat_or, toNat_bit he, ha]
  exact (Nat.two_pow_add_eq_or_of_lt (Nat.pow_lt_pow_right (by decide) (Nat.lt_succ_self e)) a).symm

theorem bit_ne (he : e < 32) (hn : n < e) : BitVec.twoPow 32 e ≠ BitVec.twoPow 32 n := by
  intro heq
  have hlt : 2 ^ n < 2 ^ e := Nat.pow_lt_pow_right (by decide) hn
  have htoNat := congrArg BitVec.toNat heq
  rw [toNat_bit he, toNat_bit (by omega)] at htoNat
  omega

/-! ## The ends of the loops -/

/-- The first loop goes on while there is a place above its bit, -/
theorem double_bit (he : e + 1 < 32) :
    double (BitVec.twoPow 32 e) = doubling (BitVec.twoPow 32 e) := by
  unfold double
  apply if_neg
  rw [bit_shiftLeft]
  intro hzero
  have htoNat := toNat_bit he
  rw [hzero] at htoNat
  exact Nat.ne_of_lt (Nat.two_pow_pos _) htoNat

/-- and the second one while its bit is above the tenth below `high`. -/
theorem descend_bit (hlow : 10 ≤ k) (hhigh : k < 32) (he : e < 32) (habove : k - 10 < e) :
    descend (BitVec.twoPow 32 k) (BitVec.twoPow 32 e) loops
      = refining (BitVec.twoPow 32 k) (BitVec.twoPow 32 e) loops := by
  unfold descend
  apply if_neg
  rw [bit_shiftRight hhigh hlow]
  exact bit_ne he habove

/-- There it ends. The bit is still in the register then, for `high` has at least ten places below it. -/
theorem descend_end (hlow : 10 ≤ k) (hhigh : k < 32) :
    descend (BitVec.twoPow 32 k) (BitVec.twoPow 32 (k - 10)) loops = measured loops := by
  unfold descend
  apply if_pos
  rw [bit_shiftRight hhigh hlow]

/-! ## The two loops -/

/-- The second loop, from any of its bits on. -/
theorem follows_refine (hlow : 10 ≤ k) (hhigh : k < 32) (hbits : bits ≤ 9)
    (hdvd : 2 ^ (k - 9 + bits) ∣ loops.toNat) :
    Follows (descend (BitVec.twoPow 32 k) (BitVec.twoPow 32 (k - 10 + bits)) loops)
      (refine Inquiry.probe k bits >>= fun rest => pure (some (loops.toNat + rest))) := by
  induction bits generalizing loops with
  | zero =>
    rw [Nat.add_zero, descend_end hlow hhigh]
    exact .measured loops
  | succ bits ih =>
    have hplace : k - 10 + (bits + 1) = k - 9 + bits := by omega
    have hnext : BitVec.twoPow 32 (k - 9 + bits) >>> 1 = BitVec.twoPow 32 (k - 10 + bits) := by
      rw [bit_shiftRight (by omega) (by omega), show k - 9 + bits - 1 = k - 10 + bits by omega]
    have hlower : 2 ^ (k - 9 + bits) ∣ loops.toNat :=
      Nat.dvd_trans (Nat.pow_dvd_pow 2 (by omega)) hdvd
    rw [hplace, descend_bit hlow hhigh (by omega) (by omega), Inquiry.refine_succ_bind]
    refine .asks ?_ ⟨bit_exact (n := 1) (by omega) (by omega), bit_exact (n := 10) hhigh hlow⟩
      fun fits => ?_
    · -- the bit is beside the high one
      have hdvdHigh : 2 ^ (k - 9 + bits + 1) ∣ (BitVec.twoPow 32 k).toNat := by
        rw [toNat_bit hhigh]
        exact Nat.pow_dvd_pow 2 (by omega)
      show some (BitVec.twoPow 32 k ||| BitVec.twoPow 32 (k - 9 + bits)).toNat = _
      rw [toNat_or_bit (by omega) hdvdHigh, toNat_bit hhigh]
    cases fits with
    | true =>
      have hset : (loops ||| BitVec.twoPow 32 (k - 9 + bits)).toNat = loops.toNat + 2 ^ (k - 9 + bits) :=
        toNat_or_bit (by omega) hdvd
      have hrest := ih (by omega) (hset ▸ Nat.dvd_add hlower (Nat.dvd_refl _))
      simp only [hset, Nat.add_assoc] at hrest
      show Follows (descend _ (BitVec.twoPow 32 (k - 9 + bits) >>> 1) _) _
      rw [hnext]
      exact hrest
    | false =>
      have hrest := ih (by omega) hlower
      show Follows (descend _ (BitVec.twoPow 32 (k - 9 + bits) >>> 1) _) _
      simp only [hnext, Bool.false_eq_true, if_false, Nat.zero_add]
      exact hrest

/-- What follows the doubling. -/
def finish : Option Nat → Inquiry (Option Nat)
  | none => pure none
  | some k => refine Inquiry.probe k 9 >>= fun rest => pure (some (2 ^ k + rest))

/-- When a power of two is refused, the second loop starts from the bit below the one before it. -/
theorem follows_finish (hlow : 10 ≤ k) (hhigh : k < 32) :
    Follows (descend (BitVec.twoPow 32 k) (BitVec.twoPow 32 k >>> 1) (BitVec.twoPow 32 k))
      (finish (some k)) := by
  have hplace : k - 1 = k - 10 + 9 := by omega
  have hbit : (BitVec.twoPow 32 k).toNat = 2 ^ k := toNat_bit hhigh
  have hdvd : 2 ^ (k - 9 + 9) ∣ (BitVec.twoPow 32 k).toNat := by
    rw [hbit]
    exact Nat.pow_dvd_pow 2 (by omega)
  have hrest := follows_refine hlow hhigh (Nat.le_refl 9) hdvd
  rw [hbit] at hrest
  rw [bit_shiftRight hhigh (by omega), hplace]
  exact hrest

/-- The first loop, from any power of two on. It ends at the latest when its bit falls out. -/
theorem follows_lastFit (hleft : left ≤ 21) :
    Follows (double (BitVec.twoPow 32 (31 - left))) (lastFit Inquiry.probe left >>= finish) := by
  induction left with
  | zero => exact .overflowed
  | succ left ih =>
    have hplace : 31 - (left + 1) = 30 - left := by omega
    have hup : BitVec.twoPow 32 (30 - left) <<< 1 = BitVec.twoPow 32 (31 - left) := by
      rw [bit_shiftLeft, show 30 - left + 1 = 31 - left by omega]
    have hdouble : (BitVec.twoPow 32 (31 - left)).toNat = 2 ^ (31 - left) := toNat_bit (by omega)
    have htwice : 2 ^ (31 - left) = 2 * 2 ^ (30 - left) := by
      rw [← Nat.pow_succ', show (30 - left).succ = 31 - left by omega]
    rw [hplace, double_bit (by omega), Inquiry.lastFit_succ_bind]
    refine .asks ?_ ⟨?_, bit_exact (n := 1) (by omega) (by omega),
      bit_exact (n := 10) (by omega) (by omega)⟩ fun fits => ?_
    · show some (BitVec.twoPow 32 (30 - left) <<< 1).toNat = _
      rw [hup, hdouble]
    · rw [hup, hdouble, toNat_bit (by omega), htwice]
    cases fits with
    | true =>
      show Follows (double (BitVec.twoPow 32 (30 - left) <<< 1)) _
      rw [hup]
      exact ih (by omega)
    | false => exact follows_finish (by omega) (by omega)

/-- The registers follow calibration, whatever the answers. -/
theorem follows_calibrate : Follows start (calibrate Inquiry.probe) :=
  follows_lastFit (Nat.le_refl 21)

end Search
end RoundRobin.Delay
