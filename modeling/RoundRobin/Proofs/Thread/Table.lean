import RoundRobin.Thread.Table

/-!
# The thread table as a map

A table is read through `find?`. The lemmas here tie that view to the list below it: ids stay
`Distinct` under every operation, so a listed thread is the one that its id finds, and the number of
threads changes by one where a thread is made or removed.
-/

namespace RoundRobin.ThreadTable

variable {β : Type} {table : ThreadTable β} {id i : ThreadId} {t : Thread β}

/-! ## Listed threads and found threads -/

/-- No two threads have one id. -/
def Distinct (table : ThreadTable β) : Prop := (table.threads.map (·.id)).Nodup

theorem mem_of_find? (h : table.find? id = some t) : t ∈ table.threads :=
  List.mem_of_find?_eq_some h

/-- A listed thread is found by its id. -/
theorem Distinct.find?_of_mem (h : table.Distinct) (ht : t ∈ table.threads) :
    table.find? t.id = some t := by
  obtain ⟨threads⟩ := table
  unfold Distinct at h
  unfold find?
  induction threads with
  | nil => cases ht
  | cons a rest ih =>
    simp only [List.map_cons, List.nodup_cons] at h
    rcases List.mem_cons.mp ht with rfl | hrest
    · simp
    · have hne : a.id ≠ t.id := fun e => h.1 (e ▸ List.mem_map_of_mem hrest)
      rw [List.find?_cons_of_neg (by simpa using hne)]
      exact ih h.2 hrest

theorem Distinct.mem_iff (h : table.Distinct) :
    t ∈ table.threads ↔ table.find? t.id = some t :=
  ⟨h.find?_of_mem, mem_of_find?⟩

theorem find?_eq_none_iff : table.find? id = none ↔ ∀ t ∈ table.threads, t.id ≠ id := by
  simp [find?, List.find?_eq_none]

/-- A thread that is not found is not erased. -/
theorem threads_erase_of_none (h : table.find? id = none) :
    (table.erase id).threads = table.threads := by
  rw [find?_eq_none_iff] at h
  unfold erase
  rw [List.filter_eq_self]
  intro t ht
  simpa using h t ht

/-- Who is found after a change, and what was found before it. -/
theorem of_find?_modify {f : Thread β → Thread β} (h : (table.modify id f).find? i = some t)
    (hf : ∀ t, (f t).id = t.id) :
    ∃ t₀, table.find? i = some t₀ ∧ t = if i = id then f t₀ else t₀ := by
  rw [find?_modify _ _ _ _ hf] at h
  obtain ⟨t₀, ht₀, rfl⟩ := Option.map_eq_some_iff.mp h
  exact ⟨t₀, ht₀, rfl⟩

theorem find?_modify_ne {f : Thread β → Thread β} (hne : i ≠ id) (hf : ∀ t, (f t).id = t.id) :
    (table.modify id f).find? i = table.find? i := by
  rw [find?_modify _ _ _ _ hf]
  simp [hne]

/-- A thread that was put into the table and then changed. -/
theorem find?_modify_insert {f : Thread β → Thread β} (hf : ∀ t, (f t).id = t.id) (t : Thread β)
    (i : ThreadId) : ((table.insert t).modify t.id f).find? i
      = if i = t.id then some (f t) else table.find? i := by
  rw [find?_modify _ _ _ _ hf, find?_insert]
  by_cases hi : i = t.id <;> simp [hi]

theorem modify_modify {f g : Thread β → Thread β} (hg : ∀ t, (g t).id = t.id) :
    (table.modify id g).modify id f = table.modify id fun t => f (g t) := by
  unfold modify
  simp only [List.map_map, mk.injEq]
  apply List.map_congr_left
  intro t _
  by_cases ht : t.id = id <;> simp [ht, hg]

/-- Who lives after a thread was inserted. -/
theorem lives_insert (table : ThreadTable β) (t : Thread β) (i : ThreadId) :
    ((table.insert t).find? i).isSome = (decide (i = t.id) || (table.find? i).isSome) := by
  rw [find?_insert]
  by_cases hi : i = t.id <;> simp [hi]

theorem lives_insert_of_lives (h : (table.find? i).isSome = true) (t : Thread β) :
    ((table.insert t).find? i).isSome = true := by
  rw [lives_insert, h, Bool.or_true]

/-! ## Ids stay distinct -/

theorem distinct_empty : (empty : ThreadTable β).Distinct := List.nodup_nil

theorem Distinct.erase (h : table.Distinct) (id : ThreadId) : (table.erase id).Distinct :=
  h.sublist (List.filter_sublist.map _)

theorem Distinct.insert (h : table.Distinct) (t : Thread β) : (table.insert t).Distinct := by
  have hothers := h.erase t.id
  unfold Distinct ThreadTable.insert
  rw [List.map_append, List.nodup_append]
  refine ⟨hothers, by simp, ?_⟩
  -- what was erased cannot be there when the new thread is added
  intro a ha b hb
  simp only [ThreadTable.erase, List.mem_map, List.mem_filter] at ha
  obtain ⟨u, ⟨_, hu⟩, rfl⟩ := ha
  simp only [List.map_cons, List.map_nil, List.mem_singleton] at hb
  subst hb
  simpa using hu

theorem map_id_modify {f : Thread β → Thread β} (hf : ∀ t, (f t).id = t.id) :
    (table.modify id f).threads.map (·.id) = table.threads.map (·.id) := by
  unfold modify
  rw [List.map_map]
  apply List.map_congr_left
  intro t _
  by_cases ht : t.id = id <;> simp [ht, hf]

theorem Distinct.modify (h : table.Distinct) {f : Thread β → Thread β}
    (hf : ∀ t, (f t).id = t.id) : (table.modify id f).Distinct := by
  unfold Distinct
  rw [map_id_modify hf]
  exact h

/-! ## How many there are -/

@[simp] theorem size_modify (f : Thread β → Thread β) :
    (table.modify id f).size = table.size := by
  simp [size, modify]

/-- Erasing a live thread leaves one thread less. -/
theorem Distinct.size_erase (h : table.Distinct) (ht : table.find? id = some t) :
    (table.erase id).size + 1 = table.size := by
  have hid := id_of_find? ht
  have hmem := mem_of_find? ht
  subst hid
  -- the erased threads are those with this id, and there is one of them
  have hcount : (table.threads.map (·.id)).count t.id = 1 := by
    rw [List.Nodup.count h, if_pos (List.mem_map_of_mem hmem)]
  have hsplit := List.length_eq_countP_add_countP (fun u : Thread β => u.id != t.id)
    (l := table.threads)
  have hone : table.threads.countP (fun u => decide ¬(u.id != t.id) = true) = 1 := by
    rw [← hcount, List.count, List.countP_map]
    congr 1
    funext u
    by_cases hu : u.id = t.id <;> simp [hu]
  unfold size ThreadTable.erase
  rw [← List.countP_eq_length_filter, hsplit, hone]

/-- A thread under a new id is one thread more. -/
theorem size_insert (h : table.find? t.id = none) : (table.insert t).size = table.size + 1 := by
  unfold size ThreadTable.insert
  rw [threads_erase_of_none h, List.length_append, List.length_singleton]

/-- Different live ids are not more than there are threads. -/
theorem length_le_size {ids : List ThreadId} (hnodup : ids.Nodup)
    (hlive : ∀ id ∈ ids, ∃ t, table.find? id = some t) : ids.length ≤ table.size := by
  have hsub : ids ⊆ table.threads.map (·.id) := by
    intro id hid
    obtain ⟨t, ht⟩ := hlive id hid
    exact List.mem_map.mpr ⟨t, mem_of_find? ht, id_of_find? ht⟩
  have hle := hnodup.length_le_of_subset hsub
  simpa [size] using hle

/-- Every live thread is counted under its status. -/
theorem sum_count (table : ThreadTable β) :
    table.count .running + table.count .ready + table.count .blocked + table.count .dying
      = table.size := by
  obtain ⟨threads⟩ := table
  unfold count size
  induction threads with
  | nil => rfl
  | cons a rest ih =>
    simp only [List.countP_cons, List.length_cons] at ih ⊢
    cases a.status <;> simp only [beq_iff_eq, reduceCtorEq, ↓reduceIte] <;> omega

/-- The total of the counts fits in a word if the number of threads does. -/
theorem total_counts (h : table.size ≤ Word.top) : table.counts.total = .ok table.size := by
  have hsum := table.sum_count
  unfold ThreadCounts.total counts
  dsimp only
  rw [checkedAdd_eq_ok (by omega)]
  simp only [bind, Except.bind]
  rw [checkedAdd_eq_ok (by omega)]
  dsimp only
  rw [checkedAdd_eq_ok (by omega), hsum]

end RoundRobin.ThreadTable
