import RoundRobin.Config
import RoundRobin.Cpu.Level
import RoundRobin.Stats
import RoundRobin.Thread.Id

/-!
# What a kernel does that others can see

A kernel writes to a log, calls the hooks of the process layer and works the processor. Its history
keeps all of this, with the interrupt level where that matters.
-/

namespace RoundRobin

/-! ## The log -/

/-- How much a log line matters. -/
inductive Severity where
  | info
  | debug
deriving DecidableEq, Repr

def Severity.text : Severity → String
  | .info => "info"
  | .debug => "debug"

/-- A log line by what it reports. -/
inductive LogMessage where
  | rejected (config : Config) (e : Error)
  | initialized (config : Config)
  | started (idle : ThreadId)
  | created (name : String) (id : ThreadId) (priority : Nat)
  | exiting (id : ThreadId)
  | calibrated (loopsPerSecond : Nat)
  | tickStats (s : TickStats)
  | tickCount (ticks : Nat)
deriving DecidableEq, Repr

namespace LogMessage

def severity : LogMessage → Severity
  | rejected _ _ => .debug
  | created _ _ _ => .debug
  | exiting _ => .debug
  | _ => .info

def text : LogMessage → String
  | rejected config e => "rejected scheduler config " ++ config.text ++ ": " ++ e.message
  | initialized config =>
    "scheduler initialized: " ++ toString config.timerHz ++ " Hz timer, "
      ++ toString config.timeSlice ++ "-tick slice, " ++ toString config.maxThreads
      ++ " thread pages of " ++ toString config.pageSize ++ " bytes"
  | started idle => "scheduler started, idle thread " ++ idle.text
  | created name id priority =>
    "created thread " ++ name ++ " (" ++ id.text ++ ") at priority " ++ toString priority
  | exiting id => "thread " ++ id.text ++ " exiting"
  | calibrated loopsPerSecond =>
    "calibrated delay loop: " ++ toString loopsPerSecond ++ " loops/s"
  | tickStats s => s.text
  | tickCount ticks => "Timer: " ++ toString ticks ++ " ticks"

end LogMessage

/-! ## The history -/

/-- A place where the kernel calls the process layer. -/
inductive HookPoint where
  /-- A thread is about to get the processor. -/
  | activate
  /-- A thread is about to die. -/
  | exit
  /-- The kernel asks whether a thread runs a user program. -/
  | isUser
deriving DecidableEq, Repr

/-- One thing that happened. `ν` is what the kernel's client adds of its own. -/
inductive Event (ν : Type) where
  | log (m : LogMessage)
  | hook (point : HookPoint) (id : ThreadId) (level : Level)
  /-- The tables of the scheduler were changed. -/
  | updated (level : Level)
  /-- A scheduling decision was made. -/
  | dispatched (previous next : ThreadId) (level : Level)
  /-- The processor went over to another context. -/
  | switched (level : Level)
  /-- A thread started its body. -/
  | entered (id : ThreadId) (level : Level)
  /-- The processor waits for an interrupt. -/
  | halted (id : ThreadId)
  /-- The delay loop ran a number of turns. -/
  | spun (loops : Nat)
  | note (n : ν)

end RoundRobin
