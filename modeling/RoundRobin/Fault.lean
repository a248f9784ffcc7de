import RoundRobin.Thread.Id

/-!
# Faults

A fault is a broken rule: an operation called from the wrong context, a damaged thread, a count out
of its range. Nothing in a kernel continues after one. (Failures that a caller can act on are
`RoundRobin.Error`.)
-/

namespace RoundRobin

/-- Why the machine stopped. -/
inductive Fault where
  /-- A sum left its word. -/
  | addOverflow
  | divideByZero
  /-- A reservation is larger than the address space. -/
  | capacityOverflow
  /-- A runnable thread found no room in the ready queue. -/
  | readyQueueFull
  | alreadySleeping
  /-- A page of another size was given to a pool. -/
  | foreignPage
  /-- A thread to be reclaimed had not died. -/
  | reclaimedAlive
  | currentNotRunning
  | zeroDenominator
  | coarseDenominator
  | calibrationOverflow
  | calibrationMasked
  | bringUpUnmasked
  | notInitialized
  | blockInHandler
  | blockUnmasked
  | yieldInHandler
  | exitInHandler
  | sleepInHandler
  | sleepMasked
  | idleSleep
  | timerUnmasked
  | nestedTimer
  | schedulingUnmasked
  | switchUnmasked
  | nothingRunnable
  | noThread (id : ThreadId)
  | unblockCorrupted (id : ThreadId)
  | unblockNotBlocked (id : ThreadId)
  | unblockSleeping (id : ThreadId)
  | readiedNotBlocked (id : ThreadId)
  | notRunning (id : ThreadId)
  | stillRunning (id : ThreadId)
  | corrupted (id : ThreadId)
deriving DecidableEq, Repr

namespace Fault

/-- What the machine says when it stops. -/
def message : Fault → String
  | addOverflow => "attempt to add with overflow"
  | divideByZero => "attempt to divide by zero"
  | capacityOverflow => "capacity overflow"
  | readyQueueFull => "assertion failed: self.queue.len() < self.queue.capacity()"
  | alreadySleeping => "assertion failed: !self.contains(thread)"
  | foreignPage => "assertion failed: left == right"
  | reclaimedAlive => "assertion failed: left == right"
  | currentNotRunning => "assertion failed: left == right"
  | zeroDenominator => "assertion failed: denom != 0"
  | coarseDenominator => "sub-tick delay denominator must be a multiple of 1000"
  | calibrationOverflow => "delay calibration overflowed"
  | calibrationMasked => "calibration needs the timer running"
  | bringUpUnmasked => "scheduler init with interrupts enabled"
  | notInitialized => "scheduler not initialized"
  | blockInHandler => "block called from interrupt context"
  | blockUnmasked => "block called with interrupts enabled"
  | yieldInHandler => "yield called from interrupt context"
  | exitInHandler => "exit called from interrupt context"
  | sleepInHandler => "sleep called from interrupt context"
  | sleepMasked => "sleep with interrupts off"
  | idleSleep => "idle thread cannot sleep"
  | timerUnmasked => "timer interrupt with interrupts enabled"
  | nestedTimer => "nested timer interrupt"
  | schedulingUnmasked => "scheduling with interrupts enabled"
  | switchUnmasked => "assertion failed: !Self::interrupts_enabled()"
  | nothingRunnable => "no runnable thread and no idle thread"
  | noThread id => "no thread with id " ++ id.text
  | unblockCorrupted id => "unblock of corrupted thread " ++ id.text
  | unblockNotBlocked id => "unblock of thread " ++ id.text ++ " which is not blocked"
  | unblockSleeping id => "unblock of thread " ++ id.text ++ " which is sleeping on a timer"
  | readiedNotBlocked id => "thread " ++ id.text ++ " made ready while not blocked"
  | notRunning id => "thread " ++ id.text ++ " is scheduling while not running"
  | stillRunning id => "outgoing thread " ++ id.text ++ " still running"
  | corrupted id => "thread " ++ id.text ++ " is corrupted: stack overflow or bad control block"

end Fault
end RoundRobin
