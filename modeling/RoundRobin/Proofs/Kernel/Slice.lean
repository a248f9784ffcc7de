import RoundRobin.Proofs.Kernel.History

/-!
# Slices

A tick that ends the slice asks for a yield, and a whole timer interrupt carries it out before it is
over. So between two calls no yield is pending and the slice is not used up, as long as the handler is
never run by itself. That is what it means for a core to be `Paced`, and it puts a bound on how many
interrupts there are between two decisions.
-/

namespace RoundRobin

variable {C : Client} {hooks : Hooks C}

namespace Tables

variable {β : Type} {t t' : Tables β} {user asks : Bool} {now timeSlice : Nat}

/-- A tick adds one to the slice, and asks for a yield when the slice is used up. -/
theorem sliceTicks_of_tick (h : t.tick user now timeSlice = .ok (asks, t')) :
    t'.sliceTicks = t.sliceTicks + 1 ∧ (asks = false → t'.sliceTicks < timeSlice) := by
  refine ⟨by rw [rest_of_tick h], fun hcalm => ?_⟩
  obtain ⟨woken, u, c, stats, hw, _, _, _, rfl, rfl⟩ := tick_eq_ok_iff.mp h
  rw [Bool.or_eq_false_iff, decide_eq_false_iff_not] at hcalm
  exact Nat.lt_of_not_le hcalm.1

theorem sliceTicks_of_unblock {id : ThreadId} (h : t.unblock id = .ok t') :
    t'.sliceTicks = t.sliceTicks := by
  rw [rest_of_unblock h]

end Tables

namespace Core

variable {s s' : Core C} {c : Call C.Body}

/-! ## The pace of decisions -/

/-- No yield is pending, and the current thread may run on. -/
structure Paced (s : Core C) : Prop where
  calm : s.yieldOnReturn = false
  slice : s.tables.sliceTicks < s.config.timeSlice

/-- Ticks since the first decision, if every slice had its whole length. -/
def paceOf (s : Core C) : Nat :=
  s.decisions.length * s.config.timeSlice + s.tables.sliceTicks

/-- Two cores with the same pending yield and the same slice are paced alike. -/
theorem Paced.congr (h : Paced s) (hconfig : s'.config = s.config)
    (hcalm : s'.yieldOnReturn = s.yieldOnReturn)
    (hslice : s'.tables.sliceTicks = s.tables.sliceTicks) : Paced s' := by
  refine ⟨hcalm.trans h.calm, ?_⟩
  rw [hconfig, hslice]
  exact h.slice

/-- A decision starts a new slice. -/
theorem paced_left {way : Way} {d : Dispatch} {t : Tables C.Body}
    (hcalm : s.yieldOnReturn = false) (hpos : 0 < s.config.timeSlice)
    (h : s.tables.leave way = .ok (d, t)) : Paced (s.left d t) := by
  refine ⟨hcalm, ?_⟩
  show t.sliceTicks < s.config.timeSlice
  rw [(Tables.parting_of_leave h).sliceTicks]
  exact hpos

/-- A slice that a decision cuts short counts as a whole one. -/
theorem paceOf_left {way : Way} {d : Dispatch} {t : Tables C.Body}
    (h : s.tables.leave way = .ok (d, t)) :
    paceOf (s.left d t) = s.decisions.length * s.config.timeSlice + s.config.timeSlice := by
  show (s.decisions.length + 1) * s.config.timeSlice + t.sliceTicks = _
  rw [(Tables.parting_of_leave h).sliceTicks, Nat.add_mul, Nat.one_mul, Nat.add_zero]

/-- The handler keeps no slice and no yield but those of the interrupt that it is part of. -/
theorem Paced.ticked (h : Paced s) (ht : Ticked s s') :
    s'.config = s.config ∧ s'.decisions = s.decisions ∧
      (s'.yieldOnReturn = false → Paced s') ∧
      (s.initialized = true → s'.tables.sliceTicks = s.tables.sliceTicks + 1) := by
  cases ht with
  | early hfresh =>
    refine ⟨rfl, rfl, fun _ => h.congr rfl rfl rfl, fun hup => ?_⟩
    rw [hfresh] at hup
    cases hup
  | full hup ht =>
    -- a slice that is used up asks for a yield, so with none pending there is time left
    obtain ⟨hslice, hcalm⟩ := Tables.sliceTicks_of_tick ht
    refine ⟨rfl, rfl, fun hno => ⟨hno, hcalm ?_⟩, fun _ => hslice⟩
    exact (Bool.or_eq_false_iff.mp hno).2

/-- Between two calls the core is paced, and a timer interrupt is a tick of it. -/
theorem Paced.effect (h : Paced s) (hwhole : c ≠ .timerInterrupt) (he : Effect s c s') :
    Paced s' ∧ (s.initialized = true → paceOf s + (if c.isTimer then 1 else 0) ≤ paceOf s') := by
  have hslice := h.slice
  have hpos : 0 < s.config.timeSlice := Nat.zero_lt_of_lt hslice
  cases he with
  | nothing hother => exact ⟨h, fun _ => by rw [hother]; exact Nat.le_refl _⟩
  | advance => exact ⟨h.congr rfl rfl rfl, fun _ => Nat.le_refl _⟩
  | adopt => exact ⟨h.congr rfl rfl rfl, fun _ => Nat.le_refl _⟩
  | start => exact ⟨h.congr rfl rfl rfl, fun _ => Nat.le_refl _⟩
  | create _ _ _ hunblock =>
    have hsame := Tables.sliceTicks_of_unblock hunblock
    refine ⟨h.congr rfl rfl hsame, fun _ => ?_⟩
    show _ ≤ s.decisions.length * s.config.timeSlice + _
    rw [hsame]
    exact Nat.le_refl _
  | unblock hunblock =>
    have hsame := Tables.sliceTicks_of_unblock hunblock
    refine ⟨h.congr rfl rfl hsame, fun _ => ?_⟩
    show _ ≤ s.decisions.length * s.config.timeSlice + _
    rw [hsame]
    exact Nat.le_refl _
  | leave hother hleave =>
    refine ⟨paced_left h.calm hpos hleave, fun _ => ?_⟩
    rw [hother, paceOf_left hleave, paceOf]
    simp only [Bool.false_eq_true, ↓reduceIte]
    omega
  | prioritize => exact ⟨h.congr rfl rfl rfl, fun _ => Nat.le_refl _⟩
  | timerInterrupt => exact absurd rfl hwhole
  | tick _ _ ht hcalm =>
    obtain ⟨hconfig, hdecisions, hpaced, hone⟩ := h.ticked ht
    refine ⟨hpaced hcalm, fun hup => ?_⟩
    rw [paceOf, paceOf, hconfig, hdecisions, hone hup]
    exact Nat.le_refl _
  | @preempt s₁ d t _ _ ht _ hleave =>
    -- the tick that used the slice up is its last one, and the decision starts the next
    obtain ⟨hconfig, hdecisions, _, _⟩ := h.ticked ht
    have hpos₁ : 0 < s₁.answered.config.timeSlice := hconfig ▸ hpos
    refine ⟨paced_left rfl hpos₁ hleave, fun _ => ?_⟩
    rw [paceOf_left (s := s₁.answered) hleave, paceOf]
    show _ ≤ s₁.decisions.length * s₁.config.timeSlice + s₁.config.timeSlice
    rw [hconfig, hdecisions]
    simp only [Call.isTimer, ↓reduceIte]
    omega

end Core

/-! ## Runs with whole interrupts -/

variable {allowed : Kernel C → Call C.Body → Prop} {config : Config} {client : C.State}
  {k₀ k k' : Kernel C} {calls : List (Call C.Body)}

/-- How many timer interrupts there are among calls. -/
def timerCalls (calls : List (Call C.Body)) : Nat := calls.countP (·.isTimer)

theorem timerCalls_snoc (calls : List (Call C.Body)) (c : Call C.Body) :
    timerCalls (calls ++ [c]) = timerCalls calls + (if c.isTimer then 1 else 0) := by
  simp [timerCalls, List.countP_append, List.countP_singleton]

/-- A run with whole interrupts leaves a paced core, and has at most as many interrupts as ticks fit
into the slices that it began. -/
theorem Run.paced (hq : hooks.QueryOnly) (hwhole : .timerInterrupt ∉ calls)
    (hrun : Run hooks allowed k calls k') (hk : k.core.Paced) :
    k'.core.Paced ∧ (k.initialized = true →
      k.core.paceOf + timerCalls calls ≤ k'.core.paceOf) := by
  induction hrun with
  | nil => exact ⟨hk, fun _ => Nat.le_refl _⟩
  | @snoc calls c r k₁ k₂ run _ step ih =>
    rw [List.mem_append, not_or, List.mem_singleton] at hwhole
    obtain ⟨hpaced, hpace⟩ := ih hwhole.1
    have heffect := Call.effect hq step
    obtain ⟨hpaced', hpace'⟩ := hpaced.effect (Ne.symm hwhole.2) heffect
    refine ⟨hpaced', fun hup => ?_⟩
    have hup₁ : k₁.core.initialized = true := run.keeps hq Core.kept_initialized hup
    rw [timerCalls_snoc]
    have := hpace hup
    have := hpace' hup₁
    omega

theorem Kernel.paced_of_ofConfig (h : Kernel.ofConfig config client = .ok k) : k.core.Paced := by
  obtain ⟨hvalid, _, rfl⟩ := eq_of_ofConfig h
  refine ⟨rfl, ?_⟩
  show 0 < config.timeSlice
  unfold Config.validate at hvalid
  split at hvalid
  · cases hvalid
  · split at hvalid
    · cases hvalid
    · omega

end RoundRobin
