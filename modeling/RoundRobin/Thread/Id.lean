import RoundRobin.Word

/-!
# Thread ids

Ids are handed out in order, starting from one, and never twice until the 64-bit range is used up;
from there on the last id is handed out for ever.
-/

namespace RoundRobin

/-- Names a thread for the whole life of a kernel. -/
structure ThreadId where
  val : Nat
deriving DecidableEq, Repr

namespace ThreadId

/-- The id handed out first. -/
def first : ThreadId := ⟨1⟩

/-- The id handed out after `id`. -/
def next (id : ThreadId) : ThreadId := ⟨Word.saturate (id.val + 1)⟩

/-- Decimal digits of the id. -/
def text (id : ThreadId) : String := toString id.val

/-- The first `n` ids. -/
def firstIds : Nat → ThreadId → List ThreadId
  | 0, _ => []
  | n + 1, id => id :: firstIds n id.next

end ThreadId
end RoundRobin
