import RoundRobin.Clock.Counter
import RoundRobin.Session.Basic

/-!
# Sessions with a clock
-/

namespace RoundRobin.Session

inductive ClockCommand where
  /-- Advances a number of times. -/
  | increment (times : Nat)
  | get
  | frequency
  | ticksToNanos (ticks : Nat)
  | nanosToTicks (nanos : Nat)
  | toTicks (num denom : Nat)
  | setLoops (loops : Nat)
  | loops
  /-- Runs the delay loop, which takes no tick by itself. -/
  | busyWait (loops : Nat)

/-- A clock that has ticked a number of times more. -/
def advanceBy : Nat → Clock → Except Fault Clock
  | 0, c => .ok c
  | n + 1, c => do advanceBy n (← c.advance)

def ClockCommand.perform : ClockCommand → Clock → Except Fault (Answer × Clock)
  | increment times, c => do
    let c ← advanceBy times c
    return (if times = 0 then .nothing else .number c.ticks, c)
  | get, c => return (.number c.ticks, c)
  | frequency, c => return (.number c.frequency, c)
  | ticksToNanos ticks, c => return (.number (c.ticksToNanos ticks), c)
  | nanosToTicks nanos, c => return (.number (← c.nanosToTicks nanos), c)
  | toTicks num denom, c => return (.number (← c.toTicks num denom), c)
  | setLoops n, c => return (.nothing, c.setLoopsPerTick n)
  | loops, c => return (.number c.loopsPerTick, c)
  | busyWait _, c => return (.number c.ticks, c)

/-- A session with a new clock; there is none at frequency zero. -/
def clock (frequency : Nat) (commands : List ClockCommand) :
    Except Fault (List (Except Fault (Answer × Clock))) := do
  return run ClockCommand.perform commands (← Clock.ofFrequency frequency)

end RoundRobin.Session
