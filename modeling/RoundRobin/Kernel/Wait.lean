import RoundRobin.Clock.Delay
import RoundRobin.Clock.Duration
import RoundRobin.Kernel.Switch

/-!
# Waiting for time to pass

Waits of a tick and more give up the processor until a wake tick. Shorter ones turn the delay loop,
since sleeping would round them up to a whole tick; before the loop is calibrated they take no time.
-/

namespace RoundRobin.Kernel

open Act

variable {C : Client}

/-- Sleeps for a number of ticks. -/
def sleep (hooks : Hooks C) (ticks : Nat) : Act C Unit := do
  let wakeTick := (← get).clock.deadline ticks
  requireUnmasked .sleepMasked
  sleepUntil hooks wakeTick

/-- Turns the delay loop. -/
def busyWait (loops : Nat) : Act C Unit := record (.spun loops)

/-- Waits for `num / denom` seconds. -/
def realTimeSleep (hooks : Hooks C) (num denom : Nat) : Act C Unit := do
  let clock := (← get).clock
  let ticks ← orFault (clock.toTicks num denom)
  requireUnmasked .sleepMasked
  if 0 < ticks then
    sleep hooks ticks
  else
    busyWait (← orFault (Delay.subTickLoops clock.loopsPerTick clock.frequency num denom))

def sleepMillis (hooks : Hooks C) (n : Nat) : Act C Unit := realTimeSleep hooks n 1000

def sleepMicros (hooks : Hooks C) (n : Nat) : Act C Unit := realTimeSleep hooks n 1000000

def sleepNanos (hooks : Hooks C) (n : Nat) : Act C Unit := realTimeSleep hooks n 1000000000

def sleepFor (hooks : Hooks C) (d : Duration) : Act C Unit := sleepNanos hooks d.nanos

def setLoopsPerTick (loops : Nat) : Act C Unit :=
  modify fun k => { k with clock := k.clock.setLoopsPerTick loops }

/-- Measures the delay loop. `fits` tells whether a number of turns takes no longer than a tick. -/
def calibrateDelay (fits : Nat → Act C Bool) : Act C Nat := do
  requireUnmasked .calibrationMasked
  match ← Delay.calibrate fits with
  | none => throw .calibrationOverflow
  | some loops =>
    setLoopsPerTick loops
    log (.calibrated (loops * (← get).clock.frequency))
    return loops

end RoundRobin.Kernel
