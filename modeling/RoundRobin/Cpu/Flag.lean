import RoundRobin.Cpu.Context
import RoundRobin.Cpu.Level
import RoundRobin.Fault

/-!
# A processor with a flag

The plainest processor a kernel can run on: its mask is one flag, clear at reset, and switching
contexts is only counted, so the code that gives up the processor goes on at once.
-/

namespace RoundRobin

/-- A processor that keeps one flag and counts its switches. -/
structure FlagCpu where
  /-- Whether interrupts are delivered. -/
  delivering : Bool := false
  switches : Nat := 0
deriving DecidableEq, Repr

namespace FlagCpu

instance : Maskable FlagCpu where
  enabled cpu := cpu.delivering
  enable cpu := { cpu with delivering := true }
  disable cpu := { cpu with delivering := false }
  halt cpu := { cpu with delivering := true }

/-- Switches to another context, which has to happen with interrupts masked. -/
def switch (cpu : FlagCpu) : Except Fault FlagCpu :=
  if cpu.delivering then .error .switchUnmasked
  else if cpu.switches = Word.top then .error .addOverflow
  else .ok { cpu with switches := cpu.switches + 1 }

@[simp] theorem level_setLevel (l : Level) (cpu : FlagCpu) :
    Maskable.level (Maskable.setLevel l cpu) = l := by
  cases l <;> rfl

end FlagCpu
end RoundRobin
