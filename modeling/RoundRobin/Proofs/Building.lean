import RoundRobin.Proofs.Kernel.Run

/-!
# Which configurations give a kernel

A configuration with a field out of its range is refused with the error of the first such field. One
that is in range gives a kernel as long as every container can hold a slot for each of its threads and
for the one that booted. The range of the number of threads has no upper end, so some configurations
that are accepted end in a fault all the same.
-/

namespace RoundRobin

-- Powers here are those of natural numbers themselves, whatever other powers are in scope.
attribute [local instance (high)] instPowNat

variable {C : Client}

namespace Config

/-! ## The ranges -/

/-- All fields are in the ranges that are documented. -/
structure InRange (c : Config) : Prop where
  timerHz : 19 ≤ c.timerHz ∧ c.timerHz ≤ 1000
  timeSlice : 1 ≤ c.timeSlice
  maxThreads : 2 ≤ c.maxThreads
  pageSize : (∃ n : Nat, c.pageSize = 2 ^ n) ∧ 4096 ≤ c.pageSize

/-- The error of the first field that is out of its range. -/
inductive Rejects (c : Config) : Error → Prop
  | timerHz (hbad : ¬(19 ≤ c.timerHz ∧ c.timerHz ≤ 1000)) :
    Rejects c (.timer (.unsupportedFrequency c.timerHz))
  | timeSlice (htimer : 19 ≤ c.timerHz ∧ c.timerHz ≤ 1000) (hbad : ¬1 ≤ c.timeSlice) :
    Rejects c (.timer (.invalidTimeSlice c.timeSlice))
  | maxThreads (htimer : 19 ≤ c.timerHz ∧ c.timerHz ≤ 1000) (hslice : 1 ≤ c.timeSlice)
      (hbad : ¬2 ≤ c.maxThreads) :
    Rejects c (.memory (.invalidCapacity c.maxThreads))
  | pageSize (htimer : 19 ≤ c.timerHz ∧ c.timerHz ≤ 1000) (hslice : 1 ≤ c.timeSlice)
      (hthreads : 2 ≤ c.maxThreads)
      (hbad : ¬((∃ n : Nat, c.pageSize = 2 ^ n) ∧ 4096 ≤ c.pageSize)) :
    Rejects c (.memory (.invalidPageSize c.pageSize))

/-- A configuration is in range, or is refused for its first field that is not. -/
theorem validate_cases (c : Config) :
    c.InRange ∧ c.validate = .ok () ∨ ∃ e, c.Rejects e ∧ c.validate = .error e := by
  unfold validate
  split
  · next hbad => exact .inr ⟨_, .timerHz (by unfold minTimerHz maxTimerHz at hbad; omega), rfl⟩
  next htimer =>
  have htimer : 19 ≤ c.timerHz ∧ c.timerHz ≤ 1000 := by
    unfold minTimerHz maxTimerHz at htimer
    omega
  split
  · next hbad => exact .inr ⟨_, .timeSlice htimer (by omega), rfl⟩
  next hslice =>
  have hslice : 1 ≤ c.timeSlice := by omega
  split
  · next hbad => exact .inr ⟨_, .maxThreads htimer hslice (Nat.not_le_of_lt hbad), rfl⟩
  next hthreads =>
  have hthreads : 2 ≤ c.maxThreads := Nat.le_of_not_lt hthreads
  split
  · next hbad =>
    refine .inr ⟨_, .pageSize htimer hslice hthreads fun hpage => ?_, rfl⟩
    rcases hbad with hpower | hsmall
    · rw [isPowerOfTwo_iff.mpr hpage.1] at hpower
      cases hpower
    · exact Nat.not_le_of_lt hsmall hpage.2
  · next hpage =>
    simp only [not_or, Bool.not_eq_false, isPowerOfTwo_iff, Nat.not_lt] at hpage
    exact .inl ⟨⟨htimer, hslice, hthreads, hpage⟩, rfl⟩

theorem Rejects.not_inRange {c : Config} {e : Error} (h : c.Rejects e) : ¬c.InRange := by
  intro hin
  cases h with
  | timerHz hbad => exact hbad hin.timerHz
  | timeSlice _ hbad => exact hbad hin.timeSlice
  | maxThreads _ _ hbad => exact hbad hin.maxThreads
  | pageSize _ _ _ hbad => exact hbad hin.pageSize

theorem validate_eq_ok_iff {c : Config} : c.validate = .ok () ↔ c.InRange := by
  rcases c.validate_cases with ⟨hin, hok⟩ | ⟨e, hrejects, herror⟩
  · simp [hin, hok]
  · simp [hrejects.not_inRange, herror]

theorem validate_eq_error_iff {c : Config} {e : Error} : c.validate = .error e ↔ c.Rejects e := by
  rcases c.validate_cases with ⟨hin, hok⟩ | ⟨e', hrejects, herror⟩
  · rw [hok]
    exact ⟨nofun, fun hrejects => absurd hin hrejects.not_inRange⟩
  · rw [herror]
    constructor
    · rintro ⟨⟩
      exact hrejects
    · -- the first field out of range is one field
      intro hrejects'
      congr 1
      cases hrejects <;> cases hrejects' <;> first | rfl | contradiction

end Config

/-! ## The room that is reserved -/

theorem reserve_eq {entryBytes count : Nat} (h : entryBytes * count < 2 ^ (63 : Nat)) :
    reserve entryBytes count = .ok () := if_pos h

theorem reserve_eq_error {entryBytes count : Nat} (h : ¬entryBytes * count < 2 ^ (63 : Nat)) :
    reserve entryBytes count = .error .capacityOverflow := if_neg h

namespace Kernel

/-- Why no room can be reserved for as many threads, if it cannot: their number and the one that booted
do not fit a word, or the largest container does not fit half of the address space. -/
def shortage (maxThreads : Nat) : Option Fault :=
  if Word.top ≤ maxThreads then some .addOverflow
  else if 2 ^ (63 : Nat) ≤ SleepRegistry.entryBytes * (maxThreads + 1) then some .capacityOverflow
  else none

/-- A kernel at rest: nothing was created yet. -/
def fresh (config : Config) (client : C.State) : Kernel C where
  config := config
  client := client
  clock := { frequency := config.timerHz }
  tables := {
    ready := .empty (config.maxThreads + 1)
    pool := { pageSize := config.pageSize, capacity := config.maxThreads } }

theorem reserveSlots_eq (maxThreads : Nat) :
    reserveSlots maxThreads =
      match shortage maxThreads with
      | some f => .error f
      | none => .ok (maxThreads + 1) := by
  unfold reserveSlots shortage
  rcases Nat.lt_or_ge maxThreads Word.top with hword | htop
  · rw [checkedAdd_eq_ok hword, if_neg (Nat.not_le_of_lt hword)]
    -- among the entries with a slot for each thread, those of sleepers are the largest
    have hready : SleepRegistry.entryBytes = 2 * ReadyQueue.entryBytes := rfl
    have hreclaim : SleepRegistry.entryBytes = 2 * reclaimEntryBytes := rfl
    by_cases hroom : SleepRegistry.entryBytes * (maxThreads + 1) < 2 ^ (63 : Nat)
    · rw [if_neg (Nat.not_le_of_lt hroom)]
      have hready : reserve ReadyQueue.entryBytes (maxThreads + 1) = .ok () :=
        reserve_eq (by rw [hready, Nat.mul_assoc] at hroom; omega)
      have hreclaim : reserve reclaimEntryBytes (maxThreads + 1) = .ok () :=
        reserve_eq (by rw [hreclaim, Nat.mul_assoc] at hroom; omega)
      simp only [bind, Except.bind, hready, hreclaim, reserve_eq hroom]
      rfl
    · rw [if_pos (Nat.le_of_not_lt hroom)]
      -- if the queue of ready threads still fits, the registry does not
      by_cases hready : ReadyQueue.entryBytes * (maxThreads + 1) < 2 ^ (63 : Nat)
      · simp only [bind, Except.bind, reserve_eq hready, reserve_eq_error hroom]
      · simp only [bind, Except.bind, reserve_eq_error hready]
  · have hover : checkedAdd maxThreads 1 = .error .addOverflow := if_neg (by omega)
    rw [hover, if_pos htop]
    rfl

/-- What a configuration in range gives: a kernel, unless it asks for more room than there can be. -/
theorem assemble_eq {config : Config} (hin : config.InRange) (client : C.State) :
    assemble config client =
      match shortage config.maxThreads with
      | some f => .error f
      | none => .ok (fresh config client) := by
  unfold assemble
  rw [reserveSlots_eq]
  cases hshort : shortage config.maxThreads with
  | some f => rfl
  | none =>
    have hclock : Clock.ofFrequency config.timerHz = .ok { frequency := config.timerHz } :=
      if_neg (by have := hin.timerHz; omega)
    -- the pool of pages has an entry for each thread but the one that booted
    have hpages : PagePool.freeEntryBytes * config.maxThreads < 2 ^ (63 : Nat) := by
      unfold shortage SleepRegistry.entryBytes at hshort
      unfold PagePool.freeEntryBytes
      split at hshort
      · cases hshort
      · split at hshort
        · cases hshort
        · omega
    simp only [bind, Except.bind, hclock, PagePool.ofCapacity, reserve_eq hpages]
    rfl

/-! ## Every configuration -/

/-- A configuration with a field out of range is refused for the first such field. One in range ends in
a fault when it asks for too much room, and gives a kernel otherwise. -/
theorem ofConfig_outcome (config : Config) (client : C.State) :
    ((∃ e, ofConfig config client = .error (.config e)) ↔ ¬config.InRange) ∧
    (∀ e, ofConfig config client = .error (.config e) ↔ config.Rejects e) ∧
    (∀ f, ofConfig config client = .error (.fault f) ↔
      config.InRange ∧ shortage config.maxThreads = some f) ∧
    (∀ k, ofConfig config client = .ok k ↔
      config.InRange ∧ shortage config.maxThreads = none ∧ k = fresh config client) := by
  unfold ofConfig
  rcases config.validate_cases with ⟨hin, hok⟩ | ⟨e, hrejects, herror⟩
  · have hnot (e : Error) : ¬config.Rejects e := fun h => h.not_inRange hin
    simp only [hok, assemble_eq hin]
    cases shortage config.maxThreads with
    | some f => simp [hin, hnot]
    | none => simp [hin, hnot, eq_comm]
  · have hnot : ¬config.InRange := hrejects.not_inRange
    simp only [herror]
    refine ⟨by simp [hnot], fun e' => ?_, fun f => by simp [hnot], fun k => by simp [hnot]⟩
    rw [← Config.validate_eq_error_iff, herror]
    simp

/-- The largest number of threads is accepted, and with the one that booted it does not fit a word. -/
theorem largest_capacity_overflows :
    ({ maxThreads := Word.top } : Config).validate = .ok () ∧
      ({ maxThreads := Word.top } : Config).InRange ∧
      ofConfig (C := plainClient) { maxThreads := Word.top } () = .error (.fault .addOverflow) :=
  have hvalid : ({ maxThreads := Word.top } : Config).validate = .ok () := rfl
  ⟨hvalid, Config.validate_eq_ok_iff.mp hvalid, rfl⟩

end Kernel
end RoundRobin
