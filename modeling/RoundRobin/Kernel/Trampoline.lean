import RoundRobin.Kernel.Switch

/-!
# The trampoline

The first code of every thread takes out what the thread has to run, enables interrupts and runs it;
when that comes back the thread exits. The idle thread runs a loop that does not come back: each pass
blocks, so that another thread can take over, and then waits for an interrupt.
-/

namespace RoundRobin.Kernel

open Act

variable {C : Client}

/-- How far a trampoline got. -/
inductive Ending where
  /-- The thread exited. -/
  | exited
  /-- The idle loop was left after some passes. -/
  | halted
  /-- The body did not come back. -/
  | stuck
deriving DecidableEq, Repr

/-- Takes the entry out of the current thread. -/
def takeEntry : Act C (ThreadId × Option (Entry C.Body)) := masked (update fun t => do
  let id ← t.currentId
  let th ← t.thread id
  return ((id, th.entry), t.modifyThread id fun th => { th with entry := none }))

/-- One pass of the idle loop; `atHalt` is what happens while the processor waits. -/
def idlePass (hooks : Hooks C) (atHalt : Act C Unit) : Act C Unit := do
  setLevel .off
  block hooks
  halt
  atHalt

/-- A number of passes of the idle loop. -/
def idlePasses (hooks : Hooks C) (atHalt : Act C Unit) : Nat → Act C Unit
  | 0 => return ()
  | n + 1 => do
    idlePass hooks atHalt
    idlePasses hooks atHalt n

/-- Runs the current thread. `body` carries out a thread's code and tells whether it came back;
`idle` is as much of the idle loop as is to be seen. -/
def trampoline (hooks : Hooks C) (body : C.Body → Act C Bool) (idle : Act C Unit) :
    Act C Ending := do
  let (id, entry) ← takeEntry
  setLevel .on
  match entry with
  | some .idleLoop =>
    idle
    return .halted
  | some (.body b) =>
    record (.entered id (← level))
    if ← body b then
      exit hooks
      return .exited
    else
      return .stuck
  | none =>
    exit hooks
    return .exited

end RoundRobin.Kernel
