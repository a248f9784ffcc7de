import RoundRobin.Fault
import RoundRobin.Word

/-!
# Short delays

Waits below one tick are spent in a loop of known speed. `subTickLoops` is how many turns a wait
takes; `calibrate` measures the speed by asking, again and again, whether a number of turns fits in
one tick: it doubles until one does not, then tries each of the nine bits below the last that did.
-/

namespace RoundRobin.Delay

/-- Turns of the loop in `num / denom` seconds. Scaling by a thousand first keeps the products
small, and asks for a denominator that a thousand divides. -/
def subTickLoops (loopsPerTick frequency num denom : Nat) : Except Fault Nat :=
  if denom % 1000 ≠ 0 then .error .coarseDenominator
  else if denom / 1000 = 0 then .error .divideByZero
  else .ok (Word.saturate (loopsPerTick * num / 1000 * frequency / (denom / 1000)))

/-! ## Calibration -/

-- Powers here are those of natural numbers themselves, whatever other powers are in scope.
attribute [local instance (high)] instPowNat

variable {m : Type → Type} [Monad m]

/-- The exponent of the last power of two that fits, of those from `2 ^ (31 - left)` on; none if all
of them do. -/
def lastFit (fits : Nat → m Bool) : Nat → m (Option Nat)
  | 0 => pure none
  | left + 1 => do
    if ← fits (2 ^ (31 - left)) then lastFit fits left else pure (some (30 - left))

/-- The sum of those of the `bits` bits from `2 ^ (k - 9)` up that still fit beside `2 ^ k`, each tried
by itself, the highest first. -/
def refine (fits : Nat → m Bool) (k : Nat) : Nat → m Nat
  | 0 => pure 0
  | bits + 1 => do
    let bit := 2 ^ (k - 9 + bits)
    let kept := if ← fits (2 ^ k + bit) then bit else 0
    let rest ← refine fits k bits
    pure (kept + rest)

/-- Turns of the loop in one tick; none if every number that the counter can hold fits. -/
def calibrate (fits : Nat → m Bool) : m (Option Nat) := do
  match ← lastFit fits 21 with
  | none => pure none
  | some k => do
    let rest ← refine fits k 9
    pure (some (2 ^ k + rest))

end RoundRobin.Delay
