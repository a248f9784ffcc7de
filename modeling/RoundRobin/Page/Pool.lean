import RoundRobin.Config
import RoundRobin.Fault
import RoundRobin.Page.Basic

/-!
# The page pool

Hands out pages up to a fixed number and takes them back for the next thread: the page that came back
last goes out first. A pool that is used up says so and waits for nobody. Its three counters are
64-bit words that wrap.
-/

namespace RoundRobin

-- Powers here are those of natural numbers themselves, whatever other powers are in scope.
attribute [local instance (high)] instPowNat

/-- How many entries of a size can be reserved: as many as half of the address space holds. -/
def reserve (entryBytes count : Nat) : Except Fault Unit :=
  if entryBytes * count < 2 ^ (63 : Nat) then .ok () else .error .capacityOverflow

/-- A bounded supply of pages. -/
structure PagePool where
  /-- Bytes of each page. -/
  pageSize : Nat
  /-- Most pages in use at one time. -/
  capacity : Nat
  /-- Pages that came back, the last one first. -/
  free : List Page := []
  /-- Pages made so far. -/
  allocated : Nat := 0
  /-- Pages that came back so far. -/
  released : Nat := 0
  /-- Pages that are out. -/
  inUse : Nat := 0

/-- The counters of a pool. -/
structure PoolStats where
  allocated : Nat
  released : Nat
  inUse : Nat
deriving DecidableEq, Repr

namespace PagePool

def stats (pool : PagePool) : PoolStats :=
  { allocated := pool.allocated, released := pool.released, inUse := pool.inUse }

/-- Bytes of an entry of the list of free pages. -/
def freeEntryBytes : Nat := 16

/-- A pool that has made no page yet. -/
def ofCapacity (pageSize capacity : Nat) : Except Fault PagePool := do
  reserve freeEntryBytes capacity
  return { pageSize, capacity }

/-- Whether memory can be laid out in pages of a size. -/
def canLayOut (size : Nat) : Bool := Config.isPowerOfTwo size && size < 2 ^ (63 : Nat)

/-- The page that goes out next: the one that came back last, cleared, or else a new one. -/
def nextPage (pool : PagePool) : Option (Page × PagePool) :=
  match pool.free with
  | page :: rest => some (page.clear, { pool with free := rest })
  | [] =>
    if canLayOut pool.pageSize then
      some (Page.zeroed pool.allocated pool.pageSize,
        { pool with allocated := Word.wrapSucc pool.allocated })
    else none

/-- A clean page, or none when as many as the pool may hand out are in use. -/
def allocate (pool : PagePool) : Option (Page × PagePool) :=
  if pool.capacity ≤ pool.inUse then none
  else pool.nextPage.map fun (page, pool) =>
    (page.installCanary, { pool with inUse := Word.wrapSucc pool.inUse })

/-- The pool with a page back. -/
def giveBack (pool : PagePool) (page : Page) : Except Fault PagePool :=
  if page.size = pool.pageSize then
    .ok { pool with
      free := page :: pool.free
      released := Word.wrapSucc pool.released
      inUse := Word.wrapPred pool.inUse }
  else .error .foreignPage

/-- The pool with the page of a thread back, if the thread had one. -/
def regain (pool : PagePool) : Option Page → PagePool
  | none => pool
  | some page =>
    { pool with
      free := page :: pool.free
      released := Word.wrapSucc pool.released
      inUse := Word.wrapPred pool.inUse }

/-- Who gets a page gets one of the pool's size with the pattern in place, and the pool has room. -/
theorem of_allocate {pool pool' : PagePool} {page : Page}
    (h : pool.allocate = some (page, pool')) :
    pool.inUse < pool.capacity ∧ page.checkCanary = true ∧
      ((∀ p ∈ pool.free, p.size = pool.pageSize) → page.size = pool.pageSize) ∧
      pool' = { pool with
        free := pool.free.tail
        allocated := pool'.allocated
        inUse := Word.wrapSucc pool.inUse } := by
  unfold allocate at h
  split at h
  · cases h
  · next hroom =>
    rw [Option.map_eq_some_iff] at h
    obtain ⟨⟨page₀, pool₀⟩, hnext, h⟩ := h
    cases h
    refine ⟨by omega, Page.checkCanary_installCanary page₀, ?_⟩
    unfold nextPage at hnext
    split at hnext
    · next page rest hfree =>
      cases hnext
      rw [hfree]
      exact ⟨fun hsize => hsize page List.mem_cons_self, rfl⟩
    · next hfree =>
      split at hnext
      · cases hnext
        rw [hfree]
        exact ⟨fun _ => rfl, rfl⟩
      · cases hnext

/-- While the pool has room, the page that came back last goes out again, clean, -/
theorem allocate_of_free {pool : PagePool} {page : Page} {rest : List Page}
    (hroom : pool.inUse < pool.capacity) (hfree : pool.free = page :: rest) :
    pool.allocate = some (page.clear.installCanary,
      { pool with free := rest, inUse := Word.wrapSucc pool.inUse }) := by
  simp only [allocate, if_neg (Nat.not_le_of_lt hroom), nextPage, hfree, Option.map_some]

/-- and when none is left a new page is made. -/
theorem allocate_of_nil {pool : PagePool} (hroom : pool.inUse < pool.capacity)
    (hfree : pool.free = []) (hsize : canLayOut pool.pageSize = true) :
    pool.allocate = some ((Page.zeroed pool.allocated pool.pageSize).installCanary,
      { pool with
        allocated := Word.wrapSucc pool.allocated
        inUse := Word.wrapSucc pool.inUse }) := by
  simp only [allocate, if_neg (Nat.not_le_of_lt hroom), nextPage, hfree, hsize, if_true,
    Option.map_some]

/-- Nobody gets a page while all are in use, or when one has to be made that cannot be laid out. -/
theorem allocate_eq_none_iff {pool : PagePool} :
    pool.allocate = none ↔
      pool.capacity ≤ pool.inUse ∨ pool.free = [] ∧ canLayOut pool.pageSize = false := by
  unfold allocate nextPage
  split
  · next hfull => simp [hfull]
  · next hroom =>
    cases hfree : pool.free with
    | cons page rest => simp [hroom]
    | nil => cases hsize : canLayOut pool.pageSize <;> simp [hroom]

/-- The page that goes out is one that came back, or else a new one under the next number. -/
theorem number_of_allocate {pool pool' : PagePool} {page : Page}
    (h : pool.allocate = some (page, pool')) :
    (∃ p rest, pool.free = p :: rest ∧ page.number = p.number ∧ pool'.allocated = pool.allocated) ∨
      pool.free = [] ∧ page.number = pool.allocated ∧
        pool'.allocated = Word.wrapSucc pool.allocated := by
  unfold allocate at h
  split at h
  · cases h
  · rw [Option.map_eq_some_iff] at h
    obtain ⟨⟨page₀, pool₀⟩, hnext, h⟩ := h
    cases h
    unfold nextPage at hnext
    split at hnext
    · next p rest hfree =>
      cases hnext
      exact .inl ⟨p, rest, hfree, rfl, rfl⟩
    · next hfree =>
      split at hnext
      · cases hnext
        exact .inr ⟨hfree, rfl, rfl⟩
      · cases hnext

theorem giveBack_eq_ok_iff {pool pool' : PagePool} {page : Page} :
    pool.giveBack page = .ok pool' ↔
      page.size = pool.pageSize ∧ pool' = pool.regain (some page) := by
  unfold giveBack
  split
  · next h => exact ⟨fun e => ⟨h, (Except.ok.inj e).symm⟩, fun e => congrArg _ e.2.symm⟩
  · next h => exact ⟨nofun, fun e => absurd e.1 h⟩

end PagePool
end RoundRobin
