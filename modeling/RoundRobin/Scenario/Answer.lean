import RoundRobin.Kernel.Trampoline
import RoundRobin.Scenario.Step

/-!
# Answers to a scenario

Each step has an answer, and is written down as an element: the answer, the state of the kernel after
it, and the lines of what happened meanwhile. A step that ended in a fault is the last element.
-/

namespace RoundRobin.Scenario

/-- What is shown of a kernel. -/
structure Snapshot where
  /-- The tick count, unless a clock of unknown speed has run. -/
  now : Option Nat
  level : Level
  current : Option ThreadId
  /-- Priority of the current thread. -/
  priority : Option Nat
  idle : Option ThreadId
  /-- Of every thread there ever was, by id. -/
  statuses : List (Option Status)
  ready : List ThreadId
  sleepers : List Sleeper
  nextWake : Option Nat
  pendingReclaim : Nat
  /-- Switches between threads as the scheduler counts them. -/
  switches : Nat
  /-- Switches between contexts as the processor counts them. -/
  cpuSwitches : Nat
  allocated : Nat
  released : Nat
  inUse : Nat
  stats : TickStats

def Snapshot.of {C : Client} (k : Kernel C) (showClock : Bool) : Snapshot where
  now := if showClock then some k.now else none
  level := Maskable.level k.cpu
  current := k.tables.current
  priority := k.priority.toOption
  idle := k.tables.idle
  statuses := k.statuses
  ready := k.tables.ready.ids
  sleepers := k.tables.sleepers.sleepers
  nextWake := k.nextWake
  pendingReclaim := k.pendingReclaim
  switches := k.tables.switches
  cpuSwitches := k.cpu.switches
  allocated := k.tables.pool.allocated
  released := k.tables.pool.released
  inUse := k.tables.pool.inUse
  stats := k.tables.stats

/-- What holds of a calibration at every clock speed. -/
structure CalibrationReport where
  /-- The result is at least the first number tried. -/
  atLeastFirst : Bool
  /-- The result is a multiple of the lowest bit tried. -/
  refined : Bool
  /-- The clock holds the result. -/
  stored : Bool

/-- How the run of a thread's entry went. -/
inductive EntryOutcome where
  | ended (e : Kernel.Ending)
  | stopped (f : Fault)

mutual

inductive Answer where
  | nothing
  | ok
  | error (e : Error)
  | spawnError (e : SpawnError)
  | thread (id : ThreadId)
  | number (n : Nat)
  | flag (b : Bool)
  | level (l : Level)
  | status (s : Option Status)
  | handle (h : Option Handle)
  | counts (c : ThreadCounts) (total : Nat)
  | config (c : Config)
  | calibration (r : CalibrationReport)
  | state (s : Snapshot)
  /-- The elements of the body, if one ran. -/
  | entry (body : Option (List Element)) (outcome : EntryOutcome)

/-- One step as it is written down. -/
inductive Element where
  | done (answer : Answer) (state : Option Snapshot) (lines : List Line)
  | fatal (f : Fault) (lines : List Line)

/-- One thing that happened during a step. -/
inductive Line where
  | log (severity : Severity) (text : String)
  | hook (point : HookPoint) (tag : String) (id : ThreadId) (level : Level)
  /-- The answer to a step of a hook's script. -/
  | did (answer : Answer)
  | halt (id : ThreadId)

end

namespace Answer

/-- Whether nothing can be carried out after the step that was answered. -/
def isFinal : Answer → Bool
  | entry _ (.ended .stuck) => true
  | entry _ (.stopped _) => true
  | _ => false

def ofReply : Reply → Answer
  | .done => .nothing
  | .level l => .level l
  | .broughtUp (.ok ()) => .ok
  | .broughtUp (.error e) => .error e
  | .created (.ok id) => .thread id
  | .created (.error e) => .spawnError e

end Answer

namespace Line

/-- What a log message says. The speed of a clock is not known beforehand, so the number of a
calibration is left open. -/
def logText : LogMessage → String
  | .calibrated _ => "calibrated delay loop: <loops*hz> loops/s"
  | m => m.text

/-- How an event is written down, if at all. Calls of a process layer without a tag are not. -/
def ofEvent (tag : Option String) : Event Answer → Option Line
  | .log m => some (.log m.severity (logText m))
  | .hook point id level => tag.map fun tag => .hook point tag id level
  | .halted id => some (.halt id)
  | .note answer => some (.did answer)
  | _ => none

end Line
end RoundRobin.Scenario
