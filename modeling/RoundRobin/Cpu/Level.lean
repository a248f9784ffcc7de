/-!
# Interrupt levels

A processor either delivers interrupts or masks them. `Maskable` is what the kernel needs of a
processor's mask; reading the level, and setting it while keeping the old one, follow from it.
-/

namespace RoundRobin

/-- Whether interrupts are delivered. -/
inductive Level where
  | on
  | off
deriving DecidableEq, Repr

namespace Level

def text : Level → String
  | on => "On"
  | off => "Off"

/-- The level at which delivery is as `enabled` says. -/
def ofBool (enabled : Bool) : Level := if enabled then on else off

end Level

/-- Processor states with an interrupt mask. -/
class Maskable (σ : Type) where
  /-- Whether interrupts are delivered. -/
  enabled : σ → Bool
  enable : σ → σ
  disable : σ → σ
  /-- Waits for the next interrupt, with interrupts enabled. -/
  halt : σ → σ

namespace Maskable

variable {σ : Type} [Maskable σ]

/-- The current level. -/
def level (cpu : σ) : Level := Level.ofBool (enabled cpu)

/-- The processor at the given level. -/
def setLevel (l : Level) (cpu : σ) : σ :=
  match l with
  | .on => enable cpu
  | .off => disable cpu

/-- The level until now, and the processor at the new one. -/
def exchange (l : Level) (cpu : σ) : Level × σ := (level cpu, setLevel l cpu)

end Maskable
end RoundRobin
