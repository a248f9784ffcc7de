import RoundRobin.Stats
import RoundRobin.Thread.Basic

/-!
# The thread table

Every live thread, found by its id. `find?` is the view of the table: each operation is described by
what it does to it.
-/

namespace RoundRobin

/-- Live threads in the order in which they were made. -/
structure ThreadTable (β : Type) where
  threads : List (Thread β) := []

namespace ThreadTable

variable {β : Type}

def empty : ThreadTable β := {}

/-- The thread of an id, if it lives. -/
def find? (table : ThreadTable β) (id : ThreadId) : Option (Thread β) :=
  table.threads.find? (·.id == id)

/-- The table without the thread of an id. -/
def erase (table : ThreadTable β) (id : ThreadId) : ThreadTable β :=
  ⟨table.threads.filter (·.id != id)⟩

/-- The table with a thread, in place of the one that had its id. -/
def insert (table : ThreadTable β) (t : Thread β) : ThreadTable β :=
  ⟨(table.erase t.id).threads ++ [t]⟩

/-- The table with the thread of an id changed. The change must keep the id. -/
def modify (table : ThreadTable β) (id : ThreadId) (f : Thread β → Thread β) : ThreadTable β :=
  ⟨table.threads.map fun t => if t.id = id then f t else t⟩

/-- How many threads live. -/
def size (table : ThreadTable β) : Nat := table.threads.length

/-- How many threads have a status. -/
def count (table : ThreadTable β) (s : Status) : Nat :=
  table.threads.countP fun t => t.status == s

/-- Live threads by status. -/
def counts (table : ThreadTable β) : ThreadCounts where
  running := table.count .running
  ready := table.count .ready
  blocked := table.count .blocked
  dying := table.count .dying

/-! ## What they do to `find?` -/

@[simp] theorem find?_empty (id : ThreadId) : (empty : ThreadTable β).find? id = none := rfl

theorem id_of_find? {table : ThreadTable β} {id : ThreadId} {t : Thread β}
    (h : table.find? id = some t) : t.id = id := by
  have := List.find?_some h
  simpa using this

theorem find?_erase (table : ThreadTable β) (id i : ThreadId) :
    (table.erase id).find? i = if i = id then none else table.find? i := by
  unfold find? erase
  simp only [List.find?_filter]
  split
  · next h =>
    subst h
    rw [List.find?_eq_none]
    intro t _ ht
    simp_all
  · next h =>
    congr 1
    funext t
    by_cases ht : t.id = i
    · simp [ht, h]
    · simp [ht]

theorem find?_insert (table : ThreadTable β) (t : Thread β) (i : ThreadId) :
    (table.insert t).find? i = if i = t.id then some t else table.find? i := by
  have herase := find?_erase table t.id i
  unfold insert
  unfold find? at herase ⊢
  rw [List.find?_append, herase]
  by_cases h : i = t.id
  · subst h; simp
  · have ht : t.id ≠ i := fun e => h e.symm
    simp [h, ht]

theorem find?_modify (table : ThreadTable β) (id i : ThreadId) (f : Thread β → Thread β)
    (hf : ∀ t, (f t).id = t.id) :
    (table.modify id f).find? i = (table.find? i).map fun t => if i = id then f t else t := by
  unfold find? modify
  rw [List.find?_map]
  have hp : ((fun t : Thread β => t.id == i) ∘ fun t => if t.id = id then f t else t)
      = fun t => t.id == i := by
    funext t
    by_cases h : t.id = id <;> simp [h, hf]
  rw [hp]
  cases hfind : table.threads.find? (fun t => t.id == i) with
  | none => rfl
  | some t =>
    have : t.id = i := by simpa using List.find?_some hfind
    simp [this]

end ThreadTable
end RoundRobin
