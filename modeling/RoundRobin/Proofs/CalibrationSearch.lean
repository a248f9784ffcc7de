import Mathlib.Data.Nat.Find
import RoundRobin.Kernel.Wait
import RoundRobin.Proofs.CalibrationRegisters
import RoundRobin.Proofs.Kernel.Act
import RoundRobin.Proofs.Kernel.Run

/-!
# How long calibration takes

Nothing is assumed here of the clock that calibration asks. It may contradict itself, and fit a number of
turns one moment that is too many the next. Whatever it answers, the powers of two are asked about up to
the first that does not fit, then the nine bits below, and then it is over.
-/

namespace RoundRobin.Delay

-- Powers here are those of natural numbers themselves, whatever other powers are in scope.
attribute [local instance (high)] instPowNat

variable {answers : Nat → Bool} {k bits left i : Nat}

/-! ## The course of the search -/

/-- What calibration asks when the answers are those of a sequence. -/
def asked (answers : Nat → Bool) : List Nat := ((calibrate Inquiry.probe).path answers).1

/-- What it measures then. -/
def measured (answers : Nat → Bool) : Option Nat := ((calibrate Inquiry.probe).path answers).2

/-- The first powers of two to be asked about. -/
def doublings (n : Nat) : List Nat := (List.range n).map fun i => 2 ^ (11 + i)

/-- The nine bits below a power of two, each with that power, the highest first. -/
def refinements (k : Nat) : List Nat := (List.range 9).map fun i => 2 ^ k + 2 ^ (k - 1 - i)

/-- The sum of those bits that were accepted. -/
def kept (answers : Nat → Bool) (k : Nat) : Nat :=
  (List.range 9).foldr (fun i sum => (if answers (k - 9 + i) then 2 ^ (k - 1 - i) else 0) + sum) 0

/-- The powers of two are asked about until one does not fit. -/
theorem path_lastFit_succ (answers : Nat → Bool) (left : Nat) :
    (lastFit Inquiry.probe (left + 1)).path answers =
      if answers 0 then
        (2 ^ (31 - left) :: ((lastFit Inquiry.probe left).path fun i => answers (i + 1)).1,
          ((lastFit Inquiry.probe left).path fun i => answers (i + 1)).2)
      else ([2 ^ (31 - left)], some (30 - left)) := by
  rw [← bind_pure (lastFit Inquiry.probe (left + 1)), Inquiry.lastFit_succ_bind, Inquiry.path]
  cases answers 0 with
  | true => simp only [if_true, bind_pure]
  | false => rfl

/-- While all fit, all powers of two are asked about, -/
theorem path_lastFit_of_fits (hleft : left ≤ 21) (h : ∀ i < left, answers i = true) :
    (lastFit Inquiry.probe left).path answers
      = ((List.range left).map fun i => 2 ^ (32 - left + i), none) := by
  induction left generalizing answers with
  | zero => rfl
  | succ left ih =>
    have hrest : (lastFit Inquiry.probe left).path (fun i => answers (i + 1)) = _ :=
      ih (by omega) fun i hi => h (i + 1) (by omega)
    have hhead : 32 - (left + 1) + 0 = 31 - left := by omega
    have htail : ∀ i, 32 - (left + 1) + (i + 1) = 32 - left + i := by omega
    rw [path_lastFit_succ, if_pos (h 0 (by omega)), hrest, List.range_succ_eq_map, List.map_cons,
      List.map_map]
    simp only [hhead, Function.comp_def, Nat.succ_eq_add_one, htail]

/-- and otherwise they are up to the first that does not. -/
theorem path_lastFit_of_refused (hleft : left ≤ 21) (hi : i < left) (h : ∀ j < i, answers j = true)
    (hrefused : answers i = false) : (lastFit Inquiry.probe left).path answers
      = ((List.range (i + 1)).map fun j => 2 ^ (32 - left + j), some (31 - left + i)) := by
  induction left generalizing answers i with
  | zero => exact absurd hi (Nat.not_lt_zero i)
  | succ left ih =>
    have hhead : 32 - (left + 1) + 0 = 31 - left := by omega
    rw [path_lastFit_succ]
    cases i with
    | zero =>
      have hlast : 31 - (left + 1) + 0 = 30 - left := by omega
      rw [if_neg (by simp [hrefused]), hlast, List.range_succ_eq_map, List.map_cons, hhead]
      rfl
    | succ i =>
      have hrest : (lastFit Inquiry.probe left).path (fun i => answers (i + 1)) = _ :=
        ih (by omega) (Nat.lt_of_succ_lt_succ hi) (fun j hj => h (j + 1) (by omega)) hrefused
      have htail : ∀ i, 32 - (left + 1) + (i + 1) = 32 - left + i := by omega
      have hlast : 31 - (left + 1) + (i + 1) = 31 - left + i := by omega
      rw [if_pos (h 0 (by omega)), hrest, List.range_succ_eq_map (n := i + 1), List.map_cons,
        List.map_map, hlast]
      simp only [hhead, Function.comp_def, Nat.succ_eq_add_one, htail]

/-- The bits are asked about one by one, and those that fit are added up. -/
theorem path_refine_succ (answers : Nat → Bool) (k bits : Nat) :
    (refine Inquiry.probe k (bits + 1)).path answers =
      ((2 ^ k + 2 ^ (k - 9 + bits)) :: ((refine Inquiry.probe k bits).path fun i => answers (i + 1)).1,
        (if answers 0 then 2 ^ (k - 9 + bits) else 0)
          + ((refine Inquiry.probe k bits).path fun i => answers (i + 1)).2) := by
  rw [← bind_pure (refine Inquiry.probe k (bits + 1)), Inquiry.refine_succ_bind, Inquiry.path]
  simp only [Inquiry.path_bind_pure]

theorem path_refine (answers : Nat → Bool) (k bits : Nat) : (refine Inquiry.probe k bits).path answers
    = ((List.range bits).map fun i => 2 ^ k + 2 ^ (k - 9 + bits - 1 - i),
      (List.range bits).foldr
        (fun i sum => (if answers i then 2 ^ (k - 9 + bits - 1 - i) else 0) + sum) 0) := by
  induction bits generalizing answers with
  | zero => rfl
  | succ bits ih =>
    have hhead : k - 9 + (bits + 1) - 1 - 0 = k - 9 + bits := by omega
    have htail : ∀ i, k - 9 + (bits + 1) - 1 - (i + 1) = k - 9 + bits - 1 - i := by omega
    rw [path_refine_succ, ih, List.range_succ_eq_map, List.map_cons, List.foldr_cons, List.map_map,
      List.foldr_map]
    simp only [hhead, Function.comp_def, Nat.succ_eq_add_one, htail]

/-- What is added are bits from the tenth below `2 ^ k` up, each at most once. -/
theorem refine_bounds (answers : Nat → Bool) (k bits : Nat) :
    2 ^ (k - 9) ∣ ((refine Inquiry.probe k bits).path answers).2 ∧
    ((refine Inquiry.probe k bits).path answers).2 + 2 ^ (k - 9) ≤ 2 ^ (k - 9 + bits) := by
  induction bits generalizing answers with
  | zero =>
    have hnone : ((refine Inquiry.probe k 0).path answers).2 = 0 := rfl
    rw [hnone, Nat.zero_add]
    exact ⟨Nat.dvd_zero _, Nat.le_refl _⟩
  | succ bits ih =>
    obtain ⟨hdvd, hle⟩ := ih fun i => answers (i + 1)
    have hdouble : 2 ^ (k - 9 + (bits + 1)) = 2 ^ (k - 9 + bits) * 2 := Nat.pow_succ 2 _
    rw [path_refine_succ]
    cases answers 0 with
    | true =>
      have hbit : 2 ^ (k - 9) ∣ 2 ^ (k - 9 + bits) := Nat.pow_dvd_pow 2 (Nat.le_add_right _ _)
      simp only [if_true]
      exact ⟨Nat.dvd_add hbit hdvd, by omega⟩
    | false =>
      simp only [Bool.false_eq_true, if_false, Nat.zero_add]
      exact ⟨hdvd, by omega⟩

/-! ## All courses -/

/-- While no power of two is refused, all of them are asked about, and nothing is measured. -/
theorem exhausted (h : ∀ i < 21, answers i = true) :
    asked answers = doublings 21 ∧ measured answers = none := by
  have hpath : (calibrate Inquiry.probe).path answers = (doublings 21, none) := by
    unfold calibrate
    rw [Inquiry.path_bind, path_lastFit_of_fits (Nat.le_refl 21) h]
    show (_ ++ [], _) = _
    rw [List.append_nil]
    rfl
  exact ⟨congrArg Prod.fst hpath, congrArg Prod.snd hpath⟩

/-- Else the nine bits below the last power of two that fitted are asked about as well. -/
theorem refined (hlow : 10 ≤ k) (hhigh : k ≤ 30) (h : ∀ i < k - 10, answers i = true)
    (hrefused : answers (k - 10) = false) : asked answers = doublings (k - 9) ++ refinements k ∧
      measured answers = some (2 ^ k + kept answers k) := by
  have hlast : 31 - 21 + (k - 10) = k := by omega
  have hcount : k - 10 + 1 = k - 9 := by omega
  have htop : k - 9 + 9 - 1 = k - 1 := by omega
  have hpath : (calibrate Inquiry.probe).path answers
      = (doublings (k - 9) ++ refinements k, some (2 ^ k + kept answers k)) := by
    unfold calibrate
    rw [Inquiry.path_bind, path_lastFit_of_refused (Nat.le_refl 21) (by omega) h hrefused, hlast,
      hcount]
    dsimp only
    rw [Inquiry.path_bind_pure, path_refine, List.length_map, List.length_range, htop]
    simp only [Nat.add_comm _ (k - 9)]
    rfl
  exact ⟨congrArg Prod.fst hpath, congrArg Prod.snd hpath⟩

/-- Either all powers of two fit, or there is a first one that does not. -/
theorem fits_or_refused (answers : Nat → Bool) : (∀ i < 21, answers i = true) ∨
    ∃ k, 10 ≤ k ∧ k ≤ 30 ∧ (∀ i < k - 10, answers i = true) ∧ answers (k - 10) = false := by
  by_cases hfits : ∀ i < 21, answers i = true
  · exact .inl hfits
  right
  have hexists : ∃ i, answers i = false := by
    push Not at hfits
    obtain ⟨i, _, hi⟩ := hfits
    exact ⟨i, by simpa using hi⟩
  have hbound : Nat.find hexists < 21 := by
    push Not at hfits
    obtain ⟨i, hlt, hi⟩ := hfits
    exact Nat.lt_of_le_of_lt (Nat.find_min' hexists (by simpa using hi)) hlt
  have hplace : Nat.find hexists + 10 - 10 = Nat.find hexists := by omega
  refine ⟨Nat.find hexists + 10, by omega, by omega, ?_, ?_⟩
  · intro i hi
    rw [hplace] at hi
    simpa using Nat.find_min hexists hi
  · rw [hplace]
    exact Nat.find_spec hexists

theorem kept_eq (answers : Nat → Bool) (hlow : 10 ≤ k) :
    kept answers k = ((refine Inquiry.probe k 9).path fun i => answers (k - 9 + i)).2 := by
  rw [path_refine, show k - 9 + 9 - 1 = k - 1 by omega]
  rfl

/-- The result is a multiple of the last bit tried, and less than the power of two that was refused. -/
theorem kept_bounds (answers : Nat → Bool) (hlow : 10 ≤ k) :
    2 ^ (k - 9) ∣ 2 ^ k + kept answers k ∧ 2 ^ k + kept answers k < 2 ^ (k + 1) := by
  obtain ⟨hdvd, hle⟩ := refine_bounds (fun i => answers (k - 9 + i)) k 9
  rw [← kept_eq answers hlow] at hdvd hle
  rw [Nat.sub_add_cancel (by omega)] at hle
  have hpos := Nat.two_pow_pos (k - 9)
  have hdouble : 2 ^ (k + 1) = 2 ^ k * 2 := Nat.pow_succ 2 k
  exact ⟨Nat.dvd_add (Nat.pow_dvd_pow 2 (Nat.sub_le k 9)) hdvd, by omega⟩

/-- What calibration does when the answers are those of a sequence. `k` is the exponent of the last power
of two that fitted. -/
structure Bounded (answers : Nat → Bool) : Prop where
  few : (asked answers).length ≤ 30
  gives_up_iff : measured answers = none ↔ ∀ i < 21, answers i = true
  gives_up : (∀ i < 21, answers i = true) → asked answers = doublings 21
  refines : ∀ k, 10 ≤ k → k ≤ 30 → (∀ i < k - 10, answers i = true) → answers (k - 10) = false →
    asked answers = doublings (k - 9) ++ refinements k ∧
    measured answers = some (2 ^ k + kept answers k) ∧ 2 ^ (k - 9) ∣ 2 ^ k + kept answers k
  in_range : ∀ turns, measured answers = some turns → 2 ^ (10 : Nat) ≤ turns ∧ turns < 2 ^ (31 : Nat)

theorem bounded (answers : Nat → Bool) : Bounded answers := by
  have hrefines (k : Nat) (hlow : 10 ≤ k) (hhigh : k ≤ 30) (h : ∀ i < k - 10, answers i = true)
      (hrefused : answers (k - 10) = false) : asked answers = doublings (k - 9) ++ refinements k ∧
        measured answers = some (2 ^ k + kept answers k) ∧ 2 ^ (k - 9) ∣ 2 ^ k + kept answers k := by
    obtain ⟨hasked, hmeasured⟩ := refined hlow hhigh h hrefused
    exact ⟨hasked, hmeasured, (kept_bounds answers hlow).1⟩
  rcases fits_or_refused answers with hfits | ⟨k, hlow, hhigh, hfits, hrefused⟩
  · obtain ⟨hasked, hmeasured⟩ := exhausted hfits
    refine ⟨?_, iff_of_true hmeasured hfits, fun _ => hasked, hrefines, ?_⟩
    · rw [hasked]
      decide
    · intro turns hturns
      rw [hmeasured] at hturns
      cases hturns
  · obtain ⟨hasked, hmeasured⟩ := refined hlow hhigh hfits hrefused
    have hnotAll : ¬ ∀ i < 21, answers i = true := by
      intro hall
      have hfit := hall (k - 10) (by omega)
      rw [hrefused] at hfit
      cases hfit
    have hsome : measured answers ≠ none := by
      rw [hmeasured]
      exact Option.some_ne_none _
    refine ⟨?_, iff_of_false hsome hnotAll, fun hall => absurd hall hnotAll, hrefines, ?_⟩
    · rw [hasked]
      simp only [doublings, refinements, List.length_append, List.length_map, List.length_range]
      omega
    · intro turns hturns
      obtain rfl : 2 ^ k + kept answers k = turns := by
        rw [hmeasured] at hturns
        exact Option.some.inj hturns
      have hleast : 2 ^ 10 ≤ 2 ^ k := Nat.pow_le_pow_right (by decide) hlow
      have hmost : 2 ^ (k + 1) ≤ 2 ^ 31 := Nat.pow_le_pow_right (by decide) (by omega)
      have hlt := (kept_bounds answers hlow).2
      exact ⟨by omega, Nat.lt_of_lt_of_le hlt hmost⟩

end RoundRobin.Delay

namespace RoundRobin

open Act Delay

variable {C : Client} {fits : Nat → Act C Bool} {k k₁ : Kernel C} {answers : Nat → Bool}

/-! ## In a kernel -/

/-- Measuring comes to what the answers come to, and is logged and remembered. -/
theorem Kernel.calibrateDelay_of_answered (hon : Maskable.level k.cpu = .on)
    (h : Inquiry.Answered fits (asked answers) answers k k₁) :
    calibrateDelay fits k = match measured answers with
      | none => .error .calibrationOverflow k₁
      | some loops => .ok loops { k₁ with
          clock := k₁.clock.setLoopsPerTick loops
          history := .log (.calibrated (loops * k₁.clock.frequency)) :: k₁.history } := by
  have hcheck : requireUnmasked .calibrationMasked k = .ok () k :=
    requireUnmasked_eq_ok_iff.mpr ⟨hon, rfl⟩
  have hcalibrate : calibrate fits k = .ok (measured answers) k₁ := by
    rw [Inquiry.calibrate_eq_run]
    exact Inquiry.run_of_answered h
  unfold calibrateDelay
  rw [bind_of_ok hcheck, bind_of_ok hcalibrate]
  cases measured answers with
  | none => rfl
  | some loops => rfl

/-- Whatever a clock answers, calibration is over after thirty questions at most, and the registers it
runs in lose no bit on the way. It gives up just if each of the 21 powers of two is said to fit. Otherwise
it asks about the nine bits below the last one that did, and measures the sum of those that fit. In a
kernel the turns in a second, which are logged, fit in a word. Who always answers brings it to an end. -/
theorem calibration_bounded : Search.Follows .start (calibrate Inquiry.probe) ∧
    (∀ answers, Bounded answers) ∧
    ∀ (C : Client) (fits : Nat → Act C Bool) (k : Kernel C),
      (Maskable.level k.cpu = .on → ∀ answers k₁,
        Inquiry.Answered fits (asked answers) answers k k₁ → k₁.clock.frequency ≤ Word.top32 →
        (measured answers = none → Kernel.calibrateDelay fits k = .error .calibrationOverflow k₁) ∧
        ∀ loops, measured answers = some loops → loops * k₁.clock.frequency ≤ Word.top ∧
          Kernel.calibrateDelay fits k = .ok loops { k₁ with
            clock := k₁.clock.setLoopsPerTick loops
            history := .log (.calibrated (loops * k₁.clock.frequency)) :: k₁.history }) ∧
      ((∀ turns k, ∃ answer k', fits turns k = .ok answer k') →
        ∃ answers k₁, Inquiry.Answered fits (asked answers) answers k k₁) := by
  refine ⟨Search.follows_calibrate, bounded, fun C fits k => ⟨?_, ?_⟩⟩
  · intro hon answers k₁ hanswered hfrequency
    have hmeasures := Kernel.calibrateDelay_of_answered hon hanswered
    constructor
    · intro hnone
      rw [hmeasures, hnone]
    · intro loops hloops
      have hlt : loops < 2 ^ 31 := ((bounded answers).in_range loops hloops).2
      rw [hmeasures, hloops]
      refine ⟨?_, rfl⟩
      calc loops * k₁.clock.frequency
          ≤ 2 ^ 31 * Word.top32 := Nat.mul_le_mul (Nat.le_of_lt hlt) hfrequency
        _ ≤ Word.top := by decide
  · intro hanswers
    exact Inquiry.exists_answered hanswers (calibrate Inquiry.probe) k

/-- On a clock that takes just 4096 turns for too many, and no higher number, 2048 and all nine bits below
it are measured. -/
theorem calibration_bounded_inconsistent : ∃ k : Kernel plainClient, Maskable.level k.cpu = .on ∧
    Kernel.calibrateDelay (fun turns => pure (decide (turns ≠ 4096))) k
      = .ok 4092 { k with
        clock := k.clock.setLoopsPerTick 4092
        history := .log (.calibrated 409200) :: k.history } := by
  let k : Kernel plainClient := { plainKernel with cpu := Maskable.setLevel .on plainKernel.cpu }
  have hon : Maskable.level k.cpu = .on := by decide
  obtain ⟨_, hall, hkernel⟩ := calibration_bounded
  obtain ⟨hasked, hmeasured, _⟩ := (hall fun i => decide (i ≠ 1)).refines 11 (by decide) (by decide)
    (by decide) (by decide)
  have hanswered : Inquiry.Answered (fun turns => (pure (decide (turns ≠ 4096)) : Act plainClient Bool))
      (asked fun i => decide (i ≠ 1)) (fun i => decide (i ≠ 1)) k k := by
    rw [hasked]
    repeat refine ⟨k, rfl, ?_⟩
    rfl
  obtain ⟨_, hsome⟩ := (hkernel plainClient _ k).1 hon _ _ hanswered (by decide)
  exact ⟨k, hon, (hsome 4092 hmeasured).2⟩

end RoundRobin
