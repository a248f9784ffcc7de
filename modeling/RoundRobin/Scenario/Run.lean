import RoundRobin.Kernel.Assembly
import RoundRobin.Scenario.Answer

/-!
# Running a scenario

The machine keeps beside its kernel what the process layer of the script needs. Code nests: a step
may run the body of a thread, and a body may do so again. Each body was written down once in the
script and runs at most once, so the number of steps in a script bounds the depth.
-/

namespace RoundRobin.Scenario

/-- The script's process layer, and what the machine remembers. -/
structure Process where
  /-- The name under which hooks report; none if they do not. -/
  tag : Option String := none
  /-- What the coming calls of each hook run. -/
  activate : List (List Step) := []
  exit : List (List Step) := []
  isUser : List (List Step) := []
  users : List ThreadId := []
  /-- Whether a clock of unknown speed has run. -/
  clockRan : Bool := false
  /-- The elements of the body that ran last. -/
  lastBody : Option (List Element) := none

/-- What runs on the kernel of a scenario. -/
abbrev client : Client := { Body := List Step, State := Process, Note := Answer }

open Act

/-! ## The machine -/

def process : Act client Process := return (← get).client

def modifyProcess (f : Process → Process) : Act client Unit :=
  modify fun k => { k with client := f k.client }

/-- Carries out an operation a number of times. -/
def times (act : Act client Unit) : Nat → Act client Unit
  | 0 => return ()
  | n + 1 => do
    act
    times act n

def snapshot : Act client Snapshot := do
  return .of (← get) !(← process).clockRan

/-- What happened since this was last asked for. -/
def takeLines : Act client (List Line) := modifyGet fun k =>
  (k.history.reverse.filterMap (Line.ofEvent k.client.tag), { k with history := [] })

/-- Turns of the delay loop that fit in a tick of the clock that runs for a calibration. Any clock
would do: what is reported of a calibration does not depend on it. -/
def clockSpeed : Nat := 1000000

-- Powers here are those of natural numbers themselves, whatever other powers are in scope.
attribute [local instance (high)] instPowNat

/-- Measures the delay loop. -/
def calibrate : Act client Answer := do
  let loops ← Kernel.calibrateDelay fun n => return n ≤ clockSpeed
  modifyProcess ({ · with clockRan := true })
  let stored := (← get).clock.loopsPerTick
  return .calibration
    { atLeastFirst := 2 ^ (10 : Nat) ≤ loops
      refined := loops % (2 ^ loops.log2 / 2 ^ (9 : Nat)) == 0
      stored := stored == loops }

/-- Overwrites the pattern at the end of a thread's stack. -/
def smash (id : ThreadId) : Act client Unit := modify fun k =>
  { k with tables := k.tables.modifyThread id fun th =>
      { th with page := th.page.map Page.smashCanary } }

/-- Installs a process layer, unless there is one. -/
def install (f : Process → Process) : Act client Unit := do
  if (← get).hooked = false then
    Kernel.installHooks
    modifyProcess f

def ask : Query → Act client Answer
  | .now => return .number (← Kernel.ask .now)
  | .elapsed since => return .number (← Kernel.ask (.elapsed since))
  | .inInterrupt => return .flag (← Kernel.ask .inInterrupt)
  | .currentId => return .thread (← Kernel.ask .currentId)
  | .priority => return .number (← Kernel.ask .priority)
  | .statsTotal => return .number (← orFault (← Kernel.ask .stats).total)
  | .currentThread => return .handle (some (← Kernel.ask .currentThread))
  | .handleOf id => return .handle (← Kernel.ask (.handleOf id))
  | .statusOf id => return .status (← Kernel.ask (.statusOf id))
  | .threadCounts => do
    let counts ← Kernel.ask .threadCounts
    return .counts counts (← orFault counts.total)
  | .config => return .config (← Kernel.ask .config)
  | .state => return .state (← snapshot)

/-- Runs the current thread. `body` runs a thread's code. -/
def runEntry (hooks : Hooks client) (body : List Step → Act client Bool) (halts : Nat)
    (tick : Bool) : Act client Answer := do
  let outer := (← process).lastBody
  modifyProcess ({ · with lastBody := none })
  let atHalt := if tick then Kernel.deliverInterrupt hooks else return ()
  let result ← attempt (Kernel.trampoline hooks body (Kernel.idlePasses hooks atHalt halts))
  let elements := (← process).lastBody
  modifyProcess ({ · with lastBody := outer })
  match result with
  | .ok ending => return .entry elements (.ended ending)
  | .error f => return .entry elements (.stopped f)

/-- Carries out one step. -/
def perform (hooks : Hooks client) (body : List Step → Act client Bool) :
    Step → Act client Answer
  | .call c => return .ofReply (← c.perform hooks)
  | .ask q => ask q
  | .tick n => do times (Kernel.deliverInterrupt hooks) n; return .nothing
  | .bump n => do times (discard Kernel.advanceClock) n; return .nothing
  | .park => do masked (Kernel.block hooks); return .nothing
  | .runEntry halts tick => runEntry hooks body halts tick
  | .calibrate => calibrate
  | .smash id => do smash id; return .nothing
  | .installPlain => do install id; return .nothing
  | .installScripted tag activate exit isUser => do
    install ({ · with tag := some tag, activate, exit, isUser })
    return .nothing
  | .setUsers ids => do modifyProcess ({ · with users := ids }); return .nothing

/-! ## Lists of steps -/

/-- Carries out steps and writes them down. Whether all of them were. -/
def runSteps (step : Step → Act client Answer) : List Step → Act client (List Element × Bool)
  | [] => return ([], true)
  | s :: rest => do
    match ← attempt (step s) with
    | .error f => return ([.fatal f (← takeLines)], false)
    | .ok answer =>
      if answer.isFinal then
        return ([.done answer none (← takeLines)], false)
      else
        let element := .done answer (some (← snapshot)) (← takeLines)
        let (elements, complete) ← runSteps step rest
        return (element :: elements, complete)

/-- Runs the body of a thread. `fuel` bounds how deep bodies nest. -/
def runBody (hooks : Hooks client) : Nat → List Step → Act client Bool
  | 0, _ => return true
  | fuel + 1, steps => do
    let (elements, complete) ← runSteps (perform hooks (runBody hooks fuel)) steps
    modifyProcess ({ · with lastBody := some elements })
    return complete

/-! ## The script's process layer -/

/-- The process layer while one of its own scripts runs. -/
def quietHooks : Hooks client where
  activate _ := return ()
  exit _ := return ()
  isUser id := do
    let p ← process
    return p.tag.isSome && p.users.contains id

/-- Carries out the script of a hook and notes the answers. -/
def runScript (step : Step → Act client Answer) : List Step → Act client Unit
  | [] => return ()
  | s :: rest => do
    let answer ← step s
    record (.note answer)
    unless answer.isFinal do runScript step rest

/-- Takes the script of the next call out of those of a hook. -/
def takeScript (scripts : Process → List (List Step))
    (setScripts : List (List Step) → Process → Process) : Act client (List Step) := do
  match scripts (← process) with
  | [] => return []
  | script :: rest => do
    modifyProcess (setScripts rest)
    return script

/-- The process layer of a script. `step` carries out the steps of its hooks. -/
def scriptedHooks (step : Step → Act client Answer) : Hooks client where
  activate _ := do
    runScript step (← takeScript (·.activate) fun s p => { p with activate := s })
  exit _ := do
    runScript step (← takeScript (·.exit) fun s p => { p with exit := s })
  isUser id := do
    runScript step (← takeScript (·.isUser) fun s p => { p with isUser := s })
    quietHooks.isUser id

/-! ## Whole scenarios -/

/-- What a scenario comes to. -/
inductive Report where
  /-- There is no kernel for the configuration. -/
  | refused (e : Error) (lines : List Line)
  | failed (f : Fault)
  | ran (elements : List Element)

/-- Brings a kernel up; what it logs is not shown. -/
def boot : Act client Unit := do
  let _ ← Kernel.init
  let _ ← Kernel.start
  let _ ← takeLines

/-- Runs a script on a kernel. -/
def runAll (booted : Bool) (steps : List Step) : Act client (List Element) := do
  if booted then boot
  let fuel := stepsSize steps
  let hooks := scriptedHooks (perform quietHooks (runBody quietHooks fuel))
  let (elements, _) ← runSteps (perform hooks (runBody hooks fuel)) steps
  return elements

/-- Runs a script on a new machine. -/
def run (config : Config) (booted : Bool) (steps : List Step) : Report :=
  match Kernel.ofConfig (C := client) config {} with
  | .error (.config e) =>
    let m := LogMessage.rejected config e
    .refused e [.log m.severity m.text]
  | .error (.fault f) => .failed f
  | .ok k =>
    match runAll booted steps k with
    | .ok elements _ => .ran elements
    | .error f _ => .failed f

end RoundRobin.Scenario
