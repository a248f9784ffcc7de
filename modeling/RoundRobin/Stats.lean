import RoundRobin.Fault
import RoundRobin.Word

/-!
# Statistics

Where the timer ticks went, and how many threads there are by status. Both have a checked total.
-/

namespace RoundRobin

/-- A sum that has to fit in a 64-bit word. -/
def checkedAdd (a b : Nat) : Except Fault Nat :=
  if a + b ≤ Word.top then .ok (a + b) else .error .addOverflow

theorem checkedAdd_eq_ok {a b : Nat} (h : a + b ≤ Word.top) : checkedAdd a b = .ok (a + b) :=
  if_pos h

theorem checkedAdd_eq_ok_iff {a b c : Nat} :
    checkedAdd a b = .ok c ↔ a + b ≤ Word.top ∧ c = a + b := by
  unfold checkedAdd
  split
  · next h => exact ⟨fun e => ⟨h, (Except.ok.inj e).symm⟩, fun e => congrArg _ e.2.symm⟩
  · next h => exact ⟨nofun, fun e => absurd e.1 h⟩

/-- Timer ticks by who was running. -/
structure TickStats where
  idle : Nat := 0
  /-- Threads of the kernel's own. -/
  kernel : Nat := 0
  /-- Threads that run a user program. -/
  user : Nat := 0
deriving DecidableEq, Repr

/-- Who is charged for a tick. -/
inductive TickKind where
  | idle
  | kernel
  | user
deriving DecidableEq, Repr

namespace TickStats

/-- All ticks. -/
def total (s : TickStats) : Except Fault Nat := do
  checkedAdd (← checkedAdd s.idle s.kernel) s.user

/-- One more tick of a kind. -/
def charge (s : TickStats) : TickKind → Except Fault TickStats
  | .idle => return { s with idle := ← checkedAdd s.idle 1 }
  | .kernel => return { s with kernel := ← checkedAdd s.kernel 1 }
  | .user => return { s with user := ← checkedAdd s.user 1 }

/-- The line that a diagnostic dump shows. -/
def text (s : TickStats) : String :=
  "Thread: " ++ toString s.idle ++ " idle ticks, " ++ toString s.kernel ++ " kernel ticks, "
    ++ toString s.user ++ " user ticks"

end TickStats

/-- Live threads by status. -/
structure ThreadCounts where
  running : Nat := 0
  ready : Nat := 0
  blocked : Nat := 0
  dying : Nat := 0
deriving DecidableEq, Repr

/-- All live threads. -/
def ThreadCounts.total (c : ThreadCounts) : Except Fault Nat := do
  let running ← checkedAdd c.running c.ready
  let waiting ← checkedAdd running c.blocked
  checkedAdd waiting c.dying

end RoundRobin
