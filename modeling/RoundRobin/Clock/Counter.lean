import RoundRobin.Fault
import RoundRobin.Word

/-!
# The clock

Counts timer interrupts, knows how many there are in a second, and keeps how many turns of the delay
loop fit between two of them. Conversions round down, and saturate at the last 64-bit word.
-/

namespace RoundRobin

/-- The last tick there is; a wake tick of nobody. -/
abbrev never : Nat := Word.top

/-- The tick counter with its rate. -/
structure Clock where
  /-- Ticks in a second. -/
  frequency : Nat
  /-- Ticks so far. -/
  ticks : Nat := 0
  /-- Turns of the delay loop in one tick, zero until calibrated. -/
  loopsPerTick : Nat := 0
deriving DecidableEq, Repr

namespace Clock

/-- Nanoseconds in a second. -/
abbrev nanosPerSecond : Nat := 1000000000

/-- A clock at zero. There is none that never ticks. -/
def ofFrequency (frequency : Nat) : Except Fault Clock :=
  if frequency = 0 then .error .divideByZero else .ok { frequency }

/-- Whole nanoseconds between two ticks. -/
def nanosPerTick (c : Clock) : Nat := nanosPerSecond / c.frequency

/-- One tick later. -/
def advance (c : Clock) : Except Fault Clock :=
  if c.ticks = Word.top then .error .addOverflow else .ok { c with ticks := c.ticks + 1 }

def setLoopsPerTick (c : Clock) (loops : Nat) : Clock := { c with loopsPerTick := loops }

def ticksToNanos (c : Clock) (ticks : Nat) : Nat := Word.saturate (ticks * c.nanosPerTick)

/-- Whole ticks in a number of nanoseconds. -/
def nanosToTicks (c : Clock) (nanos : Nat) : Except Fault Nat :=
  if c.nanosPerTick = 0 then .error .divideByZero else .ok (nanos / c.nanosPerTick)

/-- Whole ticks in `num / denom` seconds. -/
def toTicks (c : Clock) (num denom : Nat) : Except Fault Nat :=
  if denom = 0 then .error .zeroDenominator
  else .ok (Word.saturate (num * c.frequency / denom))

/-- Ticks since an earlier moment. -/
def elapsed (c : Clock) (since : Nat) : Nat := c.ticks - since

/-- The tick `ticks` after now, or the last one. -/
def deadline (c : Clock) (ticks : Nat) : Nat := Word.saturate (c.ticks + ticks)

theorem advance_eq_ok {c : Clock} (h : c.ticks < Word.top) :
    c.advance = .ok { c with ticks := c.ticks + 1 } := by
  unfold advance; rw [if_neg (Nat.ne_of_lt h)]

theorem toTicks_eq_ok (c : Clock) (num : Nat) {denom : Nat} (h : 0 < denom) :
    c.toTicks num denom = .ok (Word.saturate (num * c.frequency / denom)) := by
  unfold toTicks; rw [if_neg (Nat.ne_of_gt h)]

end Clock
end RoundRobin
