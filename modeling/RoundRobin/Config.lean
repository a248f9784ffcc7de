import RoundRobin.Error
import RoundRobin.Word

/-!
# Configuration

The four numbers that are fixed for the life of a scheduler, and the check that each is in its
supported range. `validate` reports the first bad one, in the order of the fields.
-/

namespace RoundRobin

/-- Tunables of a scheduler. -/
structure Config where
  /-- Timer interrupts per second. -/
  timerHz : Nat := 100
  /-- Ticks a thread may run before it is preempted. -/
  timeSlice : Nat := 4
  /-- Most threads that own a page, the idle thread included. -/
  maxThreads : Nat := 64
  /-- Bytes of a thread page. -/
  pageSize : Nat := 16384
deriving DecidableEq, Repr

namespace Config

def minTimerHz : Nat := 19

def maxTimerHz : Nat := 1000

/-- Room for the idle thread and one worker. -/
def minThreads : Nat := 2

def minPageSize : Nat := 4096

/-- The configuration used when nothing is chosen. -/
def standard : Config := {}

-- Powers here are those of natural numbers themselves, whatever other powers are in scope.
attribute [local instance (high)] instPowNat

/-- Whether `n` is a power of two. -/
def isPowerOfTwo (n : Nat) : Bool := 2 ^ n.log2 == n

/-- The first field out of its range, if any is. -/
def validate (c : Config) : Except Error Unit :=
  if c.timerHz < minTimerHz ∨ maxTimerHz < c.timerHz then
    .error (.timer (.unsupportedFrequency c.timerHz))
  else if c.timeSlice = 0 then
    .error (.timer (.invalidTimeSlice c.timeSlice))
  else if c.maxThreads < minThreads then
    .error (.memory (.invalidCapacity c.maxThreads))
  else if isPowerOfTwo c.pageSize = false ∨ c.pageSize < minPageSize then
    .error (.memory (.invalidPageSize c.pageSize))
  else
    .ok ()

/-- The fields with their names, as a log shows a configuration. -/
def text (c : Config) : String :=
  "SchedulerConfig \x7b timer_hz: " ++ toString c.timerHz
    ++ ", time_slice: " ++ toString c.timeSlice
    ++ ", max_threads: " ++ toString c.maxThreads
    ++ ", page_size: " ++ toString c.pageSize ++ " \x7d"

theorem isPowerOfTwo_iff {n : Nat} : isPowerOfTwo n = true ↔ ∃ k : Nat, n = 2 ^ k := by
  unfold isPowerOfTwo
  constructor
  · intro h
    exact ⟨n.log2, (beq_iff_eq.mp h).symm⟩
  · rintro ⟨k, rfl⟩
    simp [Nat.log2_two_pow]

end Config
end RoundRobin
