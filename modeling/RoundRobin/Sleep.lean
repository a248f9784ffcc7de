import RoundRobin.Clock.Counter

/-!
# The sleep registry

Blocked threads with the tick at which each is to wake, earliest first, and threads of one tick in
the order in which they went to sleep. A wake takes those whose tick has come off the front. The
earliest tick is kept beside the list, so that an interrupt can tell at once that nothing is due.
-/

namespace RoundRobin

/-- A sleeping thread. -/
structure Sleeper where
  thread : ThreadId
  /-- The tick it wakes at. -/
  wakeTick : Nat
deriving DecidableEq, Repr

/-- Sleeping threads, earliest first. -/
structure SleepRegistry where
  sleepers : List Sleeper := []
  /-- The earliest wake tick, `never` when nobody sleeps. -/
  nextWake : Nat := never
deriving DecidableEq, Repr

namespace SleepRegistry

/-- Bytes that one sleeper takes in the registry. -/
def entryBytes : Nat := 16

def empty : SleepRegistry := {}

/-- Sleepers with one more, after all that wake no later. -/
def insert (s : Sleeper) : List Sleeper → List Sleeper
  | [] => [s]
  | t :: rest => if t.wakeTick ≤ s.wakeTick then t :: insert s rest else s :: t :: rest

/-- Whether a thread sleeps. -/
def contains (r : SleepRegistry) (id : ThreadId) : Bool := r.sleepers.any (·.thread == id)

/-- The registry with one more thread, which must not be in it yet. -/
def register (r : SleepRegistry) (id : ThreadId) (wakeTick : Nat) : Except Fault SleepRegistry :=
  if r.contains id then .error .alreadySleeping
  else .ok { sleepers := insert ⟨id, wakeTick⟩ r.sleepers, nextWake := min r.nextWake wakeTick }

/-- Whether somebody may have to be woken by `now`. -/
def due (r : SleepRegistry) (now : Nat) : Bool := r.nextWake ≤ now

/-- Whether a sleeper's tick has come. -/
def matured (now : Nat) (s : Sleeper) : Bool := s.wakeTick ≤ now

/-- The earliest wake tick of a list, `never` for the empty one. -/
def earliest : List Sleeper → Nat
  | [] => never
  | s :: _ => s.wakeTick

/-- The threads whose tick has come, in order, and the registry of the others. -/
def wake (r : SleepRegistry) (now : Nat) : List ThreadId × SleepRegistry :=
  let rest := r.sleepers.dropWhile (matured now)
  ((r.sleepers.takeWhile (matured now)).map (·.thread),
    { sleepers := rest, nextWake := earliest rest })

def length (r : SleepRegistry) : Nat := r.sleepers.length

def isEmpty (r : SleepRegistry) : Bool := r.sleepers.isEmpty

/-! ## What they do to the list -/

@[simp] theorem sleepers_empty : empty.sleepers = [] := rfl

theorem mem_insert {s t : Sleeper} {l : List Sleeper} : t ∈ insert s l ↔ t = s ∨ t ∈ l := by
  induction l with
  | nil => simp [insert]
  | cons a l ih =>
    unfold insert
    split
    · simp only [List.mem_cons, ih]; exact or_left_comm
    · simp only [List.mem_cons]

theorem contains_iff {r : SleepRegistry} {id : ThreadId} :
    r.contains id = true ↔ id ∈ r.sleepers.map (·.thread) := by
  simp only [contains, List.any_eq_true, beq_iff_eq, List.mem_map]

theorem register_eq_ok {r : SleepRegistry} {id : ThreadId} (h : r.contains id = false) (w : Nat) :
    r.register id w
      = .ok { sleepers := insert ⟨id, w⟩ r.sleepers, nextWake := min r.nextWake w } := by
  unfold register; rw [h]; rfl

theorem register_eq_ok_iff {r r' : SleepRegistry} {id : ThreadId} {w : Nat} :
    r.register id w = .ok r' ↔ r.contains id = false ∧
      r' = { sleepers := insert ⟨id, w⟩ r.sleepers, nextWake := min r.nextWake w } := by
  unfold register
  split
  · next h => exact ⟨nofun, fun e => absurd (h.symm.trans e.1) nofun⟩
  · next h =>
    exact ⟨fun e => ⟨by simpa using h, (Except.ok.inj e).symm⟩, fun e => congrArg _ e.2.symm⟩

@[simp] theorem sleepers_wake (r : SleepRegistry) (now : Nat) :
    (r.wake now).2.sleepers = r.sleepers.dropWhile (matured now) := rfl

end SleepRegistry
end RoundRobin
