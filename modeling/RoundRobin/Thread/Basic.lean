import RoundRobin.Page.Basic
import RoundRobin.Thread.Id
import RoundRobin.Thread.Name

/-!
# Threads

The control block of a thread. The queues of the scheduler hold thread ids only; the control block's
`link` says which of them, at most one, holds its id.
-/

namespace RoundRobin

/-- What a thread is doing. -/
inductive Status where
  /-- It owns the processor. -/
  | running
  /-- It could run. -/
  | ready
  /-- It waits to be unblocked or for its wake tick. -/
  | blocked
  /-- It has exited; its page is not free yet. -/
  | dying
deriving DecidableEq, Repr

namespace Status

def text : Status → String
  | running => "Running"
  | ready => "Ready"
  | blocked => "Blocked"
  | dying => "Dying"

/-- The number that stands for a status in memory. -/
def code : Status → Nat
  | running => 0
  | ready => 1
  | blocked => 2
  | dying => 3

end Status

/-- Which container of the scheduler holds a thread's id. -/
inductive Link where
  | unlinked
  | ready
  | sleeping
  | reclaim
deriving DecidableEq, Repr

/-! ## Priorities -/

namespace Priority

/-- Priorities are kept and reported; they do not order anything. -/
def lowest : Nat := 0

def standard : Nat := 31

def highest : Nat := 63

/-- The nearest priority in range. -/
def clamp (priority : Nat) : Nat := min priority highest

end Priority

/-! ## Control blocks -/

/-- What a thread runs: the loop of the idle thread, or code of the kernel's client. -/
inductive Entry (β : Type) where
  | idleLoop
  | body (b : β)

/-- A thread's identity, as it is shown outside. -/
structure Handle where
  id : ThreadId
  name : ThreadName
deriving DecidableEq, Repr

def Handle.text (h : Handle) : String := h.name.toString ++ " (" ++ h.id.text ++ ")"

/-- A thread's control block. -/
structure Thread (β : Type) where
  id : ThreadId
  name : ThreadName
  priority : Nat
  status : Status := .blocked
  link : Link := .unlinked
  /-- The tick to wake at, of use only while it sleeps. -/
  wakeTick : Nat := 0
  /-- Damage to the control block shows here. -/
  magic : Nat
  /-- What is loaded when it runs next. -/
  context : Context := {}
  /-- Its stack; none for the thread that booted. -/
  page : Option Page := none
  /-- What it has still to run, until it starts. -/
  entry : Option (Entry β) := none

namespace Thread

/-- The value of `magic` in an undamaged control block. -/
def magicNumber : Nat := 0xcd6abf4b

variable {β : Type}

/-- A fresh thread, blocked and in no container. -/
def fresh (id : ThreadId) (name : String) (priority : Nat) (page : Option Page) : Thread β :=
  { id, name := .ofString name, priority, magic := magicNumber, page }

/-- Whether neither the control block nor the end of the stack was overwritten. -/
def isIntact (t : Thread β) : Bool :=
  t.magic == magicNumber && t.page.all Page.checkCanary

def handle (t : Thread β) : Handle := ⟨t.id, t.name⟩

end Thread
end RoundRobin
