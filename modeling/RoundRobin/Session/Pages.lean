import RoundRobin.Page.Pool
import RoundRobin.Session.Basic

/-!
# Sessions with a page pool

The session keeps the pages it is handed in slots, numbered in the order in which it got them. A slot
is used once.
-/

namespace RoundRobin.Session

inductive PoolCommand where
  | allocate
  /-- Gives the page of a slot back. -/
  | free (slot : Nat)
  /-- Forgets the page of a slot; the pool does not hear of it. -/
  | drop (slot : Nat)
  /-- Gives back a page that another pool made. -/
  | freeForeign (size : Nat)
  | check (slot : Nat)
  | install (slot : Nat)
  | write (slot offset : Nat) (value : UInt8)
  | read (slot offset : Nat)
  | info

/-- A pool and the pages it handed out. -/
structure PoolBench where
  pool : PagePool
  /-- By slot; none once a page has left its slot. -/
  slots : List (Option Page) := []
  /-- How many pages came from another pool. -/
  foreign : Nat := 0

namespace PoolBench

/-- Numbers of pages from another pool start above this. -/
def foreignBase : Nat := 1000

def page? (b : PoolBench) (slot : Nat) : Option Page := (b.slots[slot]?).join

def setSlot (b : PoolBench) (slot : Nat) (p : Option Page) : PoolBench :=
  { b with slots := b.slots.set slot p }

/-- What a question about the page of a slot answers. -/
def ask (b : PoolBench) (slot : Nat) (question : Page → Answer) : Answer :=
  ((b.page? slot).map question).getD .nothing

end PoolBench

def PoolCommand.perform : PoolCommand → PoolBench → Except Fault (Answer × PoolBench)
  | allocate, b =>
    match b.pool.allocate with
    | none => return (.nothing, b)
    | some (p, pool) =>
      return (.page b.slots.length p, { b with pool, slots := b.slots ++ [some p] })
  | free slot, b =>
    match b.page? slot with
    | none => return (.nothing, b)
    | some p => return (.nothing, { b.setSlot slot none with pool := ← b.pool.giveBack p })
  | drop slot, b => return (.nothing, b.setSlot slot none)
  | freeForeign size, b =>
    let number := PoolBench.foreignBase + b.pool.allocated + b.foreign
    return (.nothing,
      { b with pool := ← b.pool.giveBack (.zeroed number size), foreign := b.foreign + 1 })
  | check slot, b => return (b.ask slot fun p => .flag p.checkCanary, b)
  | install slot, b =>
    let b := b.setSlot slot ((b.page? slot).map Page.installCanary)
    return (b.ask slot fun p => .flag p.checkCanary, b)
  | write slot offset value, b =>
    return (.nothing, b.setSlot slot ((b.page? slot).map (·.write offset value)))
  | read slot offset, b => return (b.ask slot fun p => .number (p.read offset).toNat, b)
  | info, b => return (.numbers [b.pool.pageSize, b.pool.capacity], b)

/-- A session with a new pool. -/
def pages (pageSize capacity : Nat) (commands : List PoolCommand) :
    Except Fault (List (Except Fault (Answer × PoolBench))) := do
  return run PoolCommand.perform commands { pool := ← PagePool.ofCapacity pageSize capacity }

end RoundRobin.Session
