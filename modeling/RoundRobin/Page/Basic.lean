import RoundRobin.Cpu.Context

/-!
# Thread pages

The memory of a thread's stack. The stack grows down towards the lowest address of the page, where a
fixed pattern stands: when it has changed, the thread has run over the end of its stack.
-/

namespace RoundRobin

/-- One page. Its contents are given byte by byte, from the lowest address up. -/
structure Page where
  /-- Which page it is, counting pages in the order in which they were made. -/
  number : Nat
  /-- Bytes in the page. -/
  size : Nat
  bytes : Nat → UInt8

namespace Page

/-- The pattern at the lowest address, byte by byte. -/
def canaryBytes : List UInt8 := [0xbe, 0xba, 0xfe, 0xca, 0xef, 0xbe, 0xad, 0xde]

/-- The number whose bytes, the lowest first, are `bytes`. -/
def littleEndian (bytes : List UInt8) : Nat := bytes.foldr (fun b n => b.toNat + 256 * n) 0

/-- The pattern as one word. -/
def canary : Nat := littleEndian canaryBytes

example : canary = 0xdeadbeefcafebabe := by decide

/-- Pages smaller than this still start at a multiple of it. -/
def minAlignment : Nat := 16

/-- A page of zeros. -/
def zeroed (number size : Nat) : Page := { number, size, bytes := fun _ => 0 }

/-- The lowest address. Pages do not overlap, and each starts at a multiple of its size. -/
def base (p : Page) : Nat := (p.number + 1) * max minAlignment p.size

/-- Where the stack starts: one past the highest address, aligned. -/
def top (p : Page) : Nat := alignStack (p.base + p.size)

/-- The byte at an offset. -/
def read (p : Page) (offset : Nat) : UInt8 := p.bytes offset

/-- The page with one byte changed. -/
def write (p : Page) (offset : Nat) (value : UInt8) : Page :=
  { p with bytes := fun i => if i = offset then value else p.bytes i }

/-- The page with all bytes zero. -/
def clear (p : Page) : Page := { p with bytes := fun _ => 0 }

/-- The page with `word` at its lowest address. -/
def writeFront (p : Page) (word : List UInt8) : Page :=
  { p with bytes := fun i => word.getD i (p.bytes i) }

/-- The page with the pattern in place. -/
def installCanary (p : Page) : Page := p.writeFront canaryBytes

/-- The page with the pattern overwritten by zeros, as a stack overflow may leave it. -/
def smashCanary (p : Page) : Page := p.writeFront (canaryBytes.map fun _ => 0)

/-- Whether the pattern is in place. -/
def checkCanary (p : Page) : Bool := (List.range canaryBytes.length).map p.read == canaryBytes

/-! ## What they do to the bytes -/

@[simp] theorem read_zeroed (number size i : Nat) : (zeroed number size).read i = 0 := rfl

@[simp] theorem read_clear (p : Page) (i : Nat) : p.clear.read i = 0 := rfl

theorem read_write (p : Page) (i j : Nat) (v : UInt8) :
    (p.write i v).read j = if j = i then v else p.read j := rfl

theorem read_installCanary (p : Page) (i : Nat) :
    p.installCanary.read i = canaryBytes.getD i (p.read i) := rfl

@[simp] theorem checkCanary_installCanary (p : Page) : p.installCanary.checkCanary = true := rfl

@[simp] theorem checkCanary_smashCanary (p : Page) : p.smashCanary.checkCanary = false := rfl

@[simp] theorem number_installCanary (p : Page) : p.installCanary.number = p.number := rfl

@[simp] theorem size_installCanary (p : Page) : p.installCanary.size = p.size := rfl

@[simp] theorem number_clear (p : Page) : p.clear.number = p.number := rfl

@[simp] theorem size_clear (p : Page) : p.clear.size = p.size := rfl

end Page
end RoundRobin
