import RoundRobin.Cpu.Daif
import RoundRobin.Cpu.Level
import RoundRobin.Fault
import RoundRobin.Page.Basic

/-!
# Sessions

A session is a list of commands to one device, carried out in order. Each has an answer and leaves a
state behind; the first fault is the last answer.
-/

namespace RoundRobin.Session

/-- What a device answers to one command. -/
inductive Answer where
  | nothing
  | number (n : Nat)
  | flag (b : Bool)
  | level (l : Level)
  | numbers (ns : List Nat)
  /-- How many threads were woken, and which. -/
  | woken (count : Nat) (ids : List ThreadId)
  /-- A page and the slot it was put in. -/
  | page (slot : Nat) (p : Page)
  | registers (r : RegisterFile)

/-- A list of commands carried out from a state: the answer to each, with the state after it. -/
def run {κ σ α : Type} (perform : κ → σ → Except Fault (α × σ)) :
    List κ → σ → List (Except Fault (α × σ))
  | [], _ => []
  | c :: rest, s =>
    match perform c s with
    | .error f => [.error f]
    | .ok (a, s') => .ok (a, s') :: run perform rest s'

end RoundRobin.Session
