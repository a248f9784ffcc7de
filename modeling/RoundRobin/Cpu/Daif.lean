import RoundRobin.Cpu.Context
import RoundRobin.Cpu.Level

/-!
# A processor with a mask register

The 64-bit DAIF register holds the interrupt mask in bit 7, set when interrupts are masked; its other
bits belong to other exceptions and are left alone. The file also gives the callee-saved register
file of a suspended thread and how it lies in memory.
-/

namespace RoundRobin

/-! ## The mask register -/

/-- A processor that keeps its mask in DAIF. -/
structure DaifCpu where
  daif : BitVec 64
deriving DecidableEq, Repr

namespace DaifCpu

/-- The bit that masks interrupts. -/
def maskBit : BitVec 64 := 0x80#64

/-- All exceptions masked, as after reset. -/
def reset : DaifCpu := ⟨0x3c0#64⟩

instance : Maskable DaifCpu where
  enabled cpu := cpu.daif &&& maskBit == 0#64
  enable cpu := ⟨cpu.daif &&& ~~~maskBit⟩
  disable cpu := ⟨cpu.daif ||| maskBit⟩
  -- The wait ends on a pending interrupt even while it is masked, so unmasking comes after it.
  halt cpu := ⟨cpu.daif &&& ~~~maskBit⟩

end DaifCpu

/-! ## The register file -/

/-- What a saved register holds. -/
inductive Register where
  | word (n : Nat)
  /-- The address of the stub that starts a thread. -/
  | threadStart
deriving DecidableEq, Repr

/-- The registers that a called function must preserve. -/
structure RegisterFile where
  /-- x19 to x28, the frame pointer x29 and the link register x30. -/
  x : List Register
  sp : Nat
  /-- The low halves of the vector registers d8 to d15. -/
  d : List Nat
deriving DecidableEq, Repr

namespace RegisterFile

def generalCount : Nat := 12

def vectorCount : Nat := 8

/-- A fresh context: its link register points at the stub that starts a thread, which finds the
argument in x19 and the entry in x20. -/
def fresh (entry stackTop argument : Nat) : RegisterFile where
  x := [.word argument, .word entry] ++ List.replicate (generalCount - 3) (.word 0) ++ [.threadStart]
  sp := alignStack stackTop
  d := List.replicate vectorCount 0

/-! ## Layout in memory -/

/-- A field by its size and alignment in bytes. -/
structure Field where
  size : Nat
  alignment : Nat

/-- The least multiple of `alignment` at or above `n`. -/
def roundUp (n alignment : Nat) : Nat := (n + alignment - 1) / alignment * alignment

/-- Offsets of fields laid out in order from `start`, and the end of the last one. -/
def place (start : Nat) : List Field → List Nat × Nat
  | [] => ([], start)
  | f :: rest =>
    let offset := roundUp start f.alignment
    let (offsets, stop) := place (offset + f.size) rest
    (offset :: offsets, stop)

/-- The register file in the order in which it is saved. -/
def fields : List Field := [⟨8 * generalCount, 8⟩, ⟨8, 8⟩, ⟨8 * vectorCount, 8⟩]

/-- The alignment of the whole. -/
def alignment : Nat := 16

/-- Offsets of the fields. -/
def offsets : List Nat := (place 0 fields).1

/-- Bytes of the whole. -/
def size : Nat := roundUp (place 0 fields).2 alignment

example : offsets = [0, 96, 104] ∧ size = 176 := by decide

end RegisterFile
end RoundRobin
