/-!
# Errors

Failures that a caller can act on, each with two texts: `message` for a reader, and `label`, the name
of the case with its argument.
-/

namespace RoundRobin

/-- Why a thread was not created. -/
inductive SpawnError where
  | notInitialized
  | outOfMemory
  | invalidPriority (priority : Nat)
deriving DecidableEq, Repr

/-- Why a scheduler was not brought up. -/
inductive BringUpError where
  | alreadyInitialized
  | alreadyStarted
  | notInitialized
deriving DecidableEq, Repr

/-- Why a page pool cannot be configured. -/
inductive MemoryError where
  | invalidPageSize (bytes : Nat)
  | invalidCapacity (threads : Nat)
deriving DecidableEq, Repr

/-- Why a timer cannot be configured. -/
inductive TimerError where
  | unsupportedFrequency (hertz : Nat)
  | invalidTimeSlice (ticks : Nat)
deriving DecidableEq, Repr

/-- Any failure of a scheduler operation. -/
inductive Error where
  | spawn (e : SpawnError)
  | bringUp (e : BringUpError)
  | memory (e : MemoryError)
  | timer (e : TimerError)
deriving DecidableEq, Repr

namespace SpawnError

def message : SpawnError → String
  | notInitialized => "Scheduler not initialized"
  | outOfMemory => "Out of memory for thread creation"
  | invalidPriority priority => "Invalid priority: " ++ toString priority

def label : SpawnError → String
  | notInitialized => "NotInitialized"
  | outOfMemory => "OutOfMemory"
  | invalidPriority priority => "InvalidPriority(" ++ toString priority ++ ")"

end SpawnError

namespace BringUpError

def message : BringUpError → String
  | alreadyInitialized => "Scheduler already initialized"
  | alreadyStarted => "Scheduler already started"
  | notInitialized => "Scheduler not initialized"

def label : BringUpError → String
  | alreadyInitialized => "AlreadyInitialized"
  | alreadyStarted => "AlreadyStarted"
  | notInitialized => "NotInitialized"

end BringUpError

namespace MemoryError

def message : MemoryError → String
  | invalidPageSize bytes => "Invalid page size: " ++ toString bytes
  | invalidCapacity threads => "Invalid thread capacity: " ++ toString threads

def label : MemoryError → String
  | invalidPageSize bytes => "InvalidPageSize(" ++ toString bytes ++ ")"
  | invalidCapacity threads => "InvalidCapacity(" ++ toString threads ++ ")"

end MemoryError

namespace TimerError

def message : TimerError → String
  | unsupportedFrequency hertz => "Unsupported timer frequency: " ++ toString hertz ++ " Hz"
  | invalidTimeSlice ticks => "Invalid time slice: " ++ toString ticks ++ " ticks"

def label : TimerError → String
  | unsupportedFrequency hertz => "UnsupportedFrequency(" ++ toString hertz ++ ")"
  | invalidTimeSlice ticks => "InvalidTimeSlice(" ++ toString ticks ++ ")"

end TimerError

namespace Error

/-- The text of the failure alone, without the area it belongs to. -/
def reason : Error → String
  | spawn e => e.message
  | bringUp e => e.message
  | memory e => e.message
  | timer e => e.message

/-- The label of the failure alone. -/
def reasonLabel : Error → String
  | spawn e => e.label
  | bringUp e => e.label
  | memory e => e.label
  | timer e => e.label

def message : Error → String
  | spawn e => "Thread spawn error: " ++ e.message
  | bringUp e => "Scheduling error: " ++ e.message
  | memory e => "Memory error: " ++ e.message
  | timer e => "Timer error: " ++ e.message

def label : Error → String
  | spawn e => "Spawn(" ++ e.label ++ ")"
  | bringUp e => "Schedule(" ++ e.label ++ ")"
  | memory e => "Memory(" ++ e.label ++ ")"
  | timer e => "Timer(" ++ e.label ++ ")"

end Error
end RoundRobin
