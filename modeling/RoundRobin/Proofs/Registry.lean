import RoundRobin.Sleep

/-!
# The sleep registry in order

Sleepers are kept with the earliest first, and the cached tick is never later than any of theirs. So a
wake takes every sleeper whose tick has come and no other one, and the cached tick hides nobody. The
order needs no more than that ticks are put in by `insert` and taken off the front.
-/

namespace RoundRobin.SleepRegistry

variable {r : SleepRegistry} {s : Sleeper} {l : List Sleeper} {now : Nat}

/-- The earliest sleeper comes first, and the cached tick is no later. -/
structure Ordered (r : SleepRegistry) : Prop where
  sorted : r.sleepers.Pairwise fun a b => a.wakeTick ≤ b.wakeTick
  nextWake_le : ∀ s ∈ r.sleepers, r.nextWake ≤ s.wakeTick

theorem ordered_empty : empty.Ordered := ⟨List.Pairwise.nil, nofun⟩

theorem sorted_insert (h : l.Pairwise fun a b => a.wakeTick ≤ b.wakeTick) :
    (insert s l).Pairwise fun a b => a.wakeTick ≤ b.wakeTick := by
  induction l with
  | nil => exact List.pairwise_singleton _ _
  | cons a rest ih =>
    obtain ⟨ha, hrest⟩ := List.pairwise_cons.mp h
    unfold insert
    split
    · next hle =>
      refine List.pairwise_cons.mpr ⟨fun b hb => ?_, ih hrest⟩
      rcases mem_insert.mp hb with rfl | hb
      · exact hle
      · exact ha b hb
    · next hlt =>
      refine List.pairwise_cons.mpr ⟨fun b hb => ?_, h⟩
      rcases List.mem_cons.mp hb with rfl | hb
      · omega
      · have := ha b hb
        omega

theorem perm_insert (s : Sleeper) (l : List Sleeper) : (insert s l).Perm (s :: l) := by
  induction l with
  | nil => exact .refl _
  | cons a rest ih =>
    unfold insert
    split
    · exact (ih.cons a).trans (.swap s a rest)
    · exact .refl _

/-- One more sleeper keeps the registry in order. -/
theorem Ordered.insert (h : r.Ordered) (s : Sleeper) :
    Ordered { sleepers := SleepRegistry.insert s r.sleepers, nextWake := min r.nextWake s.wakeTick } := by
  refine ⟨sorted_insert h.sorted, fun a ha => ?_⟩
  rcases mem_insert.mp ha with rfl | ha
  · exact Nat.min_le_right _ _
  · exact Nat.le_trans (Nat.min_le_left _ _) (h.nextWake_le a ha)

/-- Who has time left stays registered. -/
theorem mem_wake_of_lt (hs : s ∈ r.sleepers) (hlt : now < s.wakeTick) :
    s ∈ (r.wake now).2.sleepers := by
  rw [sleepers_wake]
  have hsplit := List.takeWhile_append_dropWhile (p := matured now) (l := r.sleepers)
  rw [← hsplit, List.mem_append] at hs
  rcases hs with hs | hs
  · -- nobody who has time left is among those taken off the front
    have hmatured := List.all_eq_true.mp List.all_takeWhile s hs
    simp only [matured, decide_eq_true_eq] at hmatured
    omega
  · exact hs

/-- Who stays registered has time left. -/
theorem Ordered.lt_of_mem_wake (h : r.Ordered) (hs : s ∈ (r.wake now).2.sleepers) :
    now < s.wakeTick := by
  rw [sleepers_wake] at hs
  have hsorted : (r.sleepers.dropWhile (matured now)).Pairwise fun a b => a.wakeTick ≤ b.wakeTick :=
    h.sorted.sublist (List.dropWhile_sublist _)
  have hfirst := List.head?_dropWhile_not (matured now) r.sleepers
  cases hrest : r.sleepers.dropWhile (matured now) with
  | nil => rw [hrest] at hs; cases hs
  | cons a rest =>
    rw [hrest] at hs hsorted hfirst
    have ha : now < a.wakeTick := by simpa [matured] using hfirst
    rcases List.mem_cons.mp hs with rfl | hs
    · exact ha
    · have := (List.pairwise_cons.mp hsorted).1 s hs
      omega

/-- A sleeper whose tick has come is among those that are woken. -/
theorem Ordered.mem_woken (h : r.Ordered) (hs : s ∈ r.sleepers) (hle : s.wakeTick ≤ now) :
    s.thread ∈ (r.wake now).1 := by
  have hsplit := List.takeWhile_append_dropWhile (p := matured now) (l := r.sleepers)
  rw [← hsplit, List.mem_append] at hs
  rcases hs with hs | hs
  · exact List.mem_map_of_mem hs
  · have : now < s.wakeTick := h.lt_of_mem_wake hs
    omega

/-- A wake divides the registered threads. -/
theorem woken_append (r : SleepRegistry) (now : Nat) :
    (r.wake now).1 ++ (r.wake now).2.sleepers.map (·.thread) = r.sleepers.map (·.thread) := by
  rw [sleepers_wake, wake, ← List.map_append, List.takeWhile_append_dropWhile]

theorem Ordered.wake (h : r.Ordered) (now : Nat) : (r.wake now).2.Ordered := by
  have hsorted : (r.sleepers.dropWhile (matured now)).Pairwise fun a b => a.wakeTick ≤ b.wakeTick :=
    h.sorted.sublist (List.dropWhile_sublist _)
  refine ⟨hsorted, fun s hs => ?_⟩
  show earliest (r.sleepers.dropWhile (matured now)) ≤ s.wakeTick
  rw [sleepers_wake] at hs
  cases hrest : r.sleepers.dropWhile (matured now) with
  | nil => rw [hrest] at hs; cases hs
  | cons a rest =>
    rw [hrest] at hs hsorted
    rcases List.mem_cons.mp hs with rfl | hs
    · exact Nat.le_refl _
    · exact (List.pairwise_cons.mp hsorted).1 s hs

/-- A registry that is not due has nobody to wake. -/
theorem Ordered.lt_of_not_due (h : r.Ordered) (hdue : r.due now = false) (hs : s ∈ r.sleepers) :
    now < s.wakeTick := by
  have hle := h.nextWake_le s hs
  have hlt : now < r.nextWake := by simpa [due] using hdue
  omega

end RoundRobin.SleepRegistry
