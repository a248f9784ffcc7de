/-!
# Saved contexts

What a suspended thread needs to run again. A fresh context calls an entry with one argument on a
stack that grows down from an aligned top.
-/

namespace RoundRobin

/-- The greatest multiple of 16 at or below an address: where a stack may start. -/
def alignStack (address : Nat) : Nat := address / 16 * 16

/-- A context by what it will load: where to start, on which stack, with which argument. -/
structure Context where
  entry : Nat := 0
  stackTop : Nat := 0
  argument : Nat := 0
deriving DecidableEq, Repr

/-- A fresh context. -/
def Context.fresh (entry stackTop argument : Nat) : Context :=
  { entry, stackTop := alignStack stackTop, argument }

theorem alignStack_eq_self {address : Nat} (h : address % 16 = 0) : alignStack address = address :=
  Nat.div_mul_cancel (Nat.dvd_of_mod_eq_zero h)

end RoundRobin
