import RoundRobin.Fault

/-!
# The ready queue

Runnable threads in the order in which they became runnable. Room for all of them is reserved at the
start, so that a push never has to look for memory; a push beyond it is a fault.
-/

namespace RoundRobin

/-- Runnable threads, the next one first. -/
structure ReadyQueue where
  /-- Threads there is room for. -/
  capacity : Nat
  ids : List ThreadId := []
deriving DecidableEq, Repr

namespace ReadyQueue

/-- Bytes that one thread takes in the queue. -/
def entryBytes : Nat := 8

def empty (capacity : Nat) : ReadyQueue := { capacity }

/-- The queue with a thread at its tail. -/
def push (q : ReadyQueue) (id : ThreadId) : Except Fault ReadyQueue :=
  if q.ids.length < q.capacity then .ok { q with ids := q.ids ++ [id] } else .error .readyQueueFull

/-- The thread at the head, if there is one, and the queue without it. -/
def pop (q : ReadyQueue) : Option ThreadId × ReadyQueue :=
  (q.ids.head?, { q with ids := q.ids.tail })

def length (q : ReadyQueue) : Nat := q.ids.length

def isEmpty (q : ReadyQueue) : Bool := q.ids.isEmpty

/-! ## What they do to the list -/

@[simp] theorem ids_empty (capacity : Nat) : (empty capacity).ids = [] := rfl

theorem push_eq_ok_iff {q q' : ReadyQueue} {id : ThreadId} :
    q.push id = .ok q' ↔ q.length < q.capacity ∧ q' = { q with ids := q.ids ++ [id] } := by
  unfold push length
  split
  · next h => exact ⟨fun e => ⟨h, (Except.ok.inj e).symm⟩, fun e => congrArg _ e.2.symm⟩
  · next h => exact ⟨nofun, fun e => absurd e.1 h⟩

@[simp] theorem pop_fst (q : ReadyQueue) : q.pop.1 = q.ids.head? := rfl

@[simp] theorem ids_pop (q : ReadyQueue) : q.pop.2.ids = q.ids.tail := rfl

@[simp] theorem capacity_pop (q : ReadyQueue) : q.pop.2.capacity = q.capacity := rfl

end ReadyQueue
end RoundRobin
