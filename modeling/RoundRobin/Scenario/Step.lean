import RoundRobin.Kernel.Call

/-!
# Scenarios

A scenario is a script for a machine with one kernel: a list of steps, each carried out by whichever
thread is current. Most steps are calls of the kernel; the others are what the machine around it
does. The code of a thread is again a list of steps.
-/

namespace RoundRobin.Scenario

/-- A question to the kernel. -/
inductive Query where
  | now
  | elapsed (since : Nat)
  | inInterrupt
  | currentId
  | priority
  | statsTotal
  | currentThread
  | handleOf (id : ThreadId)
  | statusOf (id : ThreadId)
  | threadCounts
  | config
  /-- The whole state, as it is shown after every step. -/
  | state

/-- One step of a script. -/
inductive Step where
  | call (c : Call (List Step))
  | ask (q : Query)
  /-- So many timer interrupts, each delivered with interrupts masked for its length. -/
  | tick (times : Nat)
  /-- So many ticks of the clock without an interrupt. -/
  | bump (times : Nat)
  /-- Blocks with interrupts masked. -/
  | park
  /-- Runs the current thread; the idle loop is left after some halts, each of which may be ended by
  a timer interrupt. -/
  | runEntry (halts : Nat) (tick : Bool)
  /-- Measures the delay loop against a clock of its own. -/
  | calibrate
  /-- Overwrites the pattern at the end of a thread's stack. -/
  | smash (id : ThreadId)
  /-- Installs a process layer that does nothing. -/
  | installPlain
  /-- Installs a process layer that reports its calls under a tag. The nth call of a hook runs the
  nth of its scripts. -/
  | installScripted (tag : String) (activate exit isUser : List (List Step))
  /-- Names the threads that run user programs. -/
  | setUsers (ids : List ThreadId)

/-! ## How much there is to run -/

mutual

/-- Steps in a step, itself and those of the code in it. -/
def Step.size : Step → Nat
  | .call (.create _ _ body) => stepsSize body + 1
  | .installScripted _ activate exit isUser =>
    scriptsSize activate + scriptsSize exit + scriptsSize isUser + 1
  | _ => 1

/-- Steps in a list, and in the code in it. -/
def stepsSize : List Step → Nat
  | [] => 0
  | s :: rest => s.size + stepsSize rest

/-- Steps in several lists, and in the code in them. -/
def scriptsSize : List (List Step) → Nat
  | [] => 0
  | steps :: rest => stepsSize steps + scriptsSize rest

end

end RoundRobin.Scenario
