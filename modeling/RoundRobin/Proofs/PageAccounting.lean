import RoundRobin.Session.Pages

/-!
# The accounts of a page pool

A pool is used by its rules when only pages that it handed out, and that are still held, come back or
are dropped. Then its counters are those of the commands: what was handed out and did not come back is
in use, and what was dropped stays in use for ever. All pages that were made are in use or free, so one
more is made only when more are in use than ever before.
-/

namespace RoundRobin

-- Powers here are those of natural numbers themselves, whatever other powers are in scope.
attribute [local instance (high)] instPowNat

/-! ## Pages that are told apart -/

/-- Pages of one size, no two of them under one number, and each of them was made. -/
structure Page.Apart (size made : Nat) (pages : List Page) : Prop where
  size : ∀ p ∈ pages, p.size = size
  distinct : (pages.map (·.number)).Nodup
  made : ∀ p ∈ pages, p.number < made

namespace Page.Apart

variable {size made : Nat} {pages pages' : List Page} {p q : Page}

theorem nil : Apart size made [] := ⟨nofun, List.nodup_nil, nofun⟩

theorem perm (h : Apart size made pages) (hperm : pages.Perm pages') : Apart size made pages' where
  size r hr := h.size r (hperm.mem_iff.mpr hr)
  distinct := (hperm.map _).nodup_iff.mp h.distinct
  made r hr := h.made r (hperm.mem_iff.mpr hr)

theorem tail (h : Apart size made (p :: pages)) : Apart size made pages where
  size r hr := h.size r (List.mem_cons_of_mem _ hr)
  distinct := (List.nodup_cons.mp h.distinct).2
  made r hr := h.made r (List.mem_cons_of_mem _ hr)

/-- A page that is made gets the next number. -/
theorem cons (h : Apart size made pages) (hnumber : p.number = made) (hsize : p.size = size) :
    Apart size (made + 1) (p :: pages) where
  size := List.forall_mem_cons.mpr ⟨hsize, h.size⟩
  distinct := by
    rw [List.map_cons, List.nodup_cons]
    refine ⟨fun hmem => ?_, h.distinct⟩
    obtain ⟨r, hr, heq⟩ := List.mem_map.mp hmem
    have := h.made r hr
    omega
  made := List.forall_mem_cons.mpr ⟨by omega, fun r hr => Nat.lt_succ_of_lt (h.made r hr)⟩

/-- What is in a page does not matter. -/
theorem replace (h : Apart size made (p :: pages)) (q : Page) (hnumber : q.number = p.number)
    (hsize : q.size = p.size) : Apart size made (q :: pages) where
  size := List.forall_mem_cons.mpr
    ⟨hsize.trans (h.size p List.mem_cons_self), h.tail.size⟩
  distinct := by
    rw [List.map_cons, hnumber]
    exact h.distinct
  made := List.forall_mem_cons.mpr
    ⟨hnumber ▸ h.made p List.mem_cons_self, h.tail.made⟩

/-- The page that comes first is none of the others. -/
theorem number_ne (h : Apart size made (p :: pages)) (hq : q ∈ pages) : q.number ≠ p.number := by
  intro heq
  have hfirst : p.number ∉ pages.map (·.number) := (List.nodup_cons.mp h.distinct).1
  rw [← heq] at hfirst
  exact hfirst (List.mem_map_of_mem hq)

end Page.Apart

namespace Session

/-! ## Commands that keep to the rules -/

/-- Whether a command was handed a page. -/
def Answer.isPage : Answer → Bool
  | page _ _ => true
  | _ => false

namespace PoolCommand

def isFree : PoolCommand → Bool
  | free _ => true
  | _ => false

def isDrop : PoolCommand → Bool
  | drop _ => true
  | _ => false

/-- Whether a command keeps to the rules: it is about a page that is held, and stays within it; and no
page comes from elsewhere. -/
def Fair (b : PoolBench) : PoolCommand → Prop
  | allocate | info => True
  | free slot | drop slot | check slot | install slot => (b.page? slot).isSome = true
  | write slot offset _ | read slot offset => ∃ p, b.page? slot = some p ∧ offset < p.size
  | freeForeign _ => False

end PoolCommand

namespace PoolBench

/-- The bench after commands, carried out from the first to the last. -/
def after : List PoolCommand → PoolBench → Except Fault PoolBench
  | [], b => .ok b
  | c :: rest, b => do after rest (← c.perform b).2

/-- Whether commands keep to the rules, one after another. -/
def Fair : List PoolCommand → PoolBench → Prop
  | [], _ => True
  | c :: rest, b => c.Fair b ∧ ∀ answer b', c.perform b = .ok (answer, b') → Fair rest b'

/-- How many pages commands were handed. -/
def granted : List PoolCommand → PoolBench → Nat
  | [], _ => 0
  | c :: rest, b =>
    match c.perform b with
    | .ok (answer, b') => answer.isPage.toNat + granted rest b'
    | .error _ => 0

/-- The largest number of pages that were in use at one time while commands were carried out. -/
def peak : List PoolCommand → PoolBench → Nat
  | [], b => b.pool.inUse
  | c :: rest, b =>
    match c.perform b with
    | .ok (_, b') => max b.pool.inUse (peak rest b')
    | .error _ => b.pool.inUse

theorem inUse_le_peak (commands : List PoolCommand) (b : PoolBench) :
    b.pool.inUse ≤ peak commands b := by
  cases commands with
  | nil => exact Nat.le_refl _
  | cons c rest =>
    unfold peak
    split
    · exact Nat.le_max_left _ _
    · exact Nat.le_refl _

/-! ## Pages and slots -/

/-- The pages that are held, by slot. -/
def held (b : PoolBench) : List Page := b.slots.filterMap id

/-- The pages there are, but for those that were dropped. -/
def known (b : PoolBench) : List Page := b.held ++ b.pool.free

/-- One place of a list can be filled anew, or emptied. The rest stays as it is. -/
theorem filterMap_set {slots : List (Option Page)} {slot : Nat} {p : Page}
    (h : slots[slot]? = some (some p)) :
    ∃ rest, (slots.filterMap id).Perm (p :: rest) ∧
      ∀ o : Option Page, ((slots.set slot o).filterMap id).Perm (o.toList ++ rest) := by
  induction slots generalizing slot with
  | nil => simp at h
  | cons o slots ih =>
    cases slot with
    | zero =>
      cases h
      refine ⟨slots.filterMap id, .refl _, fun o => ?_⟩
      cases o <;> exact .refl _
    | succ slot =>
      obtain ⟨rest, hheld, hset⟩ := ih h
      cases o with
      | none => exact ⟨rest, hheld, hset⟩
      | some q =>
        refine ⟨q :: rest, (hheld.cons q).trans (.swap p q rest), fun o => ?_⟩
        exact ((hset o).cons q).trans List.perm_middle.symm

variable {b b' b₁ b₂ : PoolBench} {p q : Page} {slot : Nat}

theorem held_setSlot (h : b.page? slot = some p) :
    ∃ rest, b.held.Perm (p :: rest) ∧ ∀ o, (b.setSlot slot o).held.Perm (o.toList ++ rest) := by
  unfold page? at h
  rw [Option.join_eq_some_iff] at h
  exact filterMap_set h

theorem mem_held (h : b.page? slot = some p) : p ∈ b.held := by
  obtain ⟨rest, hheld, _⟩ := held_setSlot h
  exact hheld.mem_iff.mpr List.mem_cons_self

/-! ## What each command does -/

/-- A pool that is used up hands out nothing. -/
theorem allocate_of_full (h : b.pool.capacity ≤ b.pool.inUse) :
    PoolCommand.allocate.perform b = .ok (.nothing, b) := by
  have hnone : b.pool.allocate = none := PagePool.allocate_eq_none_iff.mpr (.inl h)
  simp only [PoolCommand.perform, hnone]
  rfl

/-- A page that the pool has is handed out in a slot of its own. -/
theorem allocate_of_some {pool : PagePool} (h : b.pool.allocate = some (p, pool)) :
    PoolCommand.allocate.perform b
      = .ok (.page b.slots.length p, { b with pool, slots := b.slots ++ [some p] }) := by
  simp only [PoolCommand.perform, h]
  rfl

theorem free_of_held (h : b.page? slot = some p) (hsize : p.size = b.pool.pageSize) :
    (PoolCommand.free slot).perform b
      = .ok (.nothing, { b.setSlot slot none with pool := b.pool.regain (some p) }) := by
  simp only [PoolCommand.perform, h, PagePool.giveBack_eq_ok_iff.mpr ⟨hsize, rfl⟩]
  rfl

/-- Who asks about a page is not handed one. -/
theorem isPage_ask {question : Page → Answer} (h : ∀ p, (question p).isPage = false) :
    (b.ask slot question).isPage = false := by
  unfold ask
  cases b.page? slot with
  | none => rfl
  | some p => exact h p

/-! ## What a bench keeps -/

/-- The pages of a bench are told apart, and all of those that were made are in use or free. -/
structure Balanced (b : PoolBench) : Prop where
  apart : Page.Apart b.pool.pageSize b.pool.allocated b.known
  canLayOut : PagePool.canLayOut b.pool.pageSize = true
  allocated : b.pool.allocated = b.pool.inUse + b.pool.free.length
  /-- Pages that were dropped are in use too. -/
  held_le : b.held.length ≤ b.pool.inUse
  bounded : b.pool.allocated ≤ b.pool.capacity
  capacity : b.pool.capacity < Word.top

/-- What happened between two benches: how many pages were handed out, came back and were dropped, and
how many were in use at most. -/
structure Moved (granted freed dropped most : Nat) (b b' : PoolBench) : Prop where
  pageSize : b'.pool.pageSize = b.pool.pageSize
  capacity : b'.pool.capacity = b.pool.capacity
  inUse : b'.pool.inUse + freed = b.pool.inUse + granted
  held : b'.held.length + freed + dropped = b.held.length + granted
  released : b'.pool.released = b.pool.released + freed
  allocated : b'.pool.allocated = max b.pool.allocated most

theorem Balanced.still (h : Balanced b) : Moved 0 0 0 b.pool.inUse b b where
  pageSize := rfl
  capacity := rfl
  inUse := rfl
  held := rfl
  released := rfl
  allocated := by
    have := h.allocated
    omega

/-- A page that is held is written to. -/
theorem Balanced.refilled (h : Balanced b) (hp : b.page? slot = some p) (q : Page)
    (hnumber : q.number = p.number) (hsize : q.size = p.size) :
    Balanced (b.setSlot slot (some q)) ∧
      Moved 0 0 0 b.pool.inUse b (b.setSlot slot (some q)) := by
  obtain ⟨rest, hheld, hset⟩ := held_setSlot hp
  have hafter := hset (some q)
  have hlength : (b.setSlot slot (some q)).held.length = b.held.length :=
    hafter.length_eq.trans hheld.length_eq.symm
  refine ⟨{ h with apart := ?_, held_le := hlength ▸ h.held_le }, { h.still with held := hlength }⟩
  have hknown : b.known.Perm (p :: (rest ++ b.pool.free)) := hheld.append_right _
  have hknown' : (b.setSlot slot (some q)).known.Perm (q :: (rest ++ b.pool.free)) :=
    hafter.append_right _
  exact ((h.apart.perm hknown).replace q hnumber hsize).perm hknown'.symm

theorem Balanced.dropped (h : Balanced b) (hp : b.page? slot = some p) :
    Balanced (b.setSlot slot none) ∧ Moved 0 0 1 b.pool.inUse b (b.setSlot slot none) := by
  obtain ⟨rest, hheld, hset⟩ := held_setSlot hp
  have hafter : (b.setSlot slot none).held.Perm rest := hset none
  have hlength : (b.setSlot slot none).held.length + 1 = b.held.length := by
    rw [hafter.length_eq, hheld.length_eq, List.length_cons]
  have hle := h.held_le
  refine ⟨{ h with apart := ?_, held_le := ?_ }, { h.still with held := hlength }⟩
  · have hknown : b.known.Perm (p :: (rest ++ b.pool.free)) := hheld.append_right _
    exact (h.apart.perm hknown).tail.perm (hafter.append_right _).symm
  · show (b.setSlot slot none).held.length ≤ b.pool.inUse
    omega

/-- A page that is held is in use, so the number of pages in use does not wrap when it comes back. -/
theorem Balanced.wrapPred_inUse (h : Balanced b) (hp : b.page? slot = some p) :
    Word.wrapPred b.pool.inUse = b.pool.inUse - 1 := by
  obtain ⟨rest, hheld, _⟩ := held_setSlot hp
  have hlength := hheld.length_eq
  rw [List.length_cons] at hlength
  have hle := h.held_le
  have hallocated := h.allocated
  have hbounded := h.bounded
  have hcapacity := h.capacity
  exact Word.wrapPred_eq (by omega) (by omega)

/-- The counters of a pool that gets back a page that is held do not wrap. -/
theorem Balanced.regain (h : Balanced b) (hp : b.page? slot = some p)
    (hreleased : b.pool.released < Word.top) :
    b.pool.regain (some p) = { b.pool with
      free := p :: b.pool.free
      released := b.pool.released + 1
      inUse := b.pool.inUse - 1 } := by
  rw [PagePool.regain, Word.wrapSucc_eq hreleased, h.wrapPred_inUse hp]

theorem Balanced.freed {pool : PagePool} (h : Balanced b) (hp : b.page? slot = some p)
    (hpool : pool = { b.pool with
      free := p :: b.pool.free
      released := b.pool.released + 1
      inUse := b.pool.inUse - 1 }) :
    Balanced { b.setSlot slot none with pool } ∧
      Moved 0 1 0 pool.inUse b { b.setSlot slot none with pool } := by
  subst hpool
  obtain ⟨rest, hheld, hset⟩ := held_setSlot hp
  have hafter : (b.setSlot slot none).held.Perm rest := hset none
  have hlength : (b.setSlot slot none).held.length + 1 = b.held.length := by
    rw [hafter.length_eq, hheld.length_eq, List.length_cons]
  have hle := h.held_le
  have hallocated := h.allocated
  constructor
  · refine ⟨?_, h.canLayOut, ?_, ?_, h.bounded, h.capacity⟩
    · -- the page only goes from its slot to the list of free pages
      have hknown : b.known.Perm (p :: (rest ++ b.pool.free)) := hheld.append_right _
      refine h.apart.perm (hknown.trans ?_)
      exact List.perm_middle.symm.trans (hafter.symm.append_right _)
    · show b.pool.allocated = b.pool.inUse - 1 + (b.pool.free.length + 1)
      omega
    · show (b.setSlot slot none).held.length ≤ b.pool.inUse - 1
      omega
  · refine ⟨rfl, rfl, ?_, hlength, rfl, ?_⟩
    · show b.pool.inUse - 1 + 1 = b.pool.inUse + 0
      omega
    · show b.pool.allocated = max b.pool.allocated (b.pool.inUse - 1)
      omega

/-- How many pages came back so far is only counted: the bench stays balanced when that wraps. -/
theorem Balanced.back (h : Balanced b) (hp : b.page? slot = some p) :
    Balanced { b.setSlot slot none with pool := b.pool.regain (some p) } := by
  obtain ⟨hfreed, _⟩ := h.freed hp rfl
  rw [PagePool.regain, h.wrapPred_inUse hp]
  exact ⟨hfreed.apart, hfreed.canLayOut, hfreed.allocated, hfreed.held_le, hfreed.bounded,
    hfreed.capacity⟩

/-- While there is room, the page that came back last is handed out again. -/
theorem Balanced.allocate_of_free {rest : List Page} (h : Balanced b)
    (hroom : b.pool.inUse < b.pool.capacity) (hfree : b.pool.free = q :: rest) :
    b.pool.allocate = some (q.clear.installCanary,
      { b.pool with free := rest, inUse := b.pool.inUse + 1 }) := by
  have hcapacity := h.capacity
  rw [PagePool.allocate_of_free hroom hfree, Word.wrapSucc_eq (by omega)]

/-- When no page is free, one is made. -/
theorem Balanced.allocate_of_nil (h : Balanced b) (hroom : b.pool.inUse < b.pool.capacity)
    (hfree : b.pool.free = []) :
    b.pool.allocate = some ((Page.zeroed b.pool.allocated b.pool.pageSize).installCanary,
      { b.pool with allocated := b.pool.allocated + 1, inUse := b.pool.inUse + 1 }) := by
  have hallocated := h.allocated
  have hbounded := h.bounded
  have hcapacity := h.capacity
  rw [PagePool.allocate_of_nil hroom hfree h.canLayOut, Word.wrapSucc_eq (by omega),
    Word.wrapSucc_eq (by omega)]

/-- The bench after a page was handed out and put into a new slot. -/
def handed (b : PoolBench) (p : Page) (pool : PagePool) : PoolBench :=
  { b with pool, slots := b.slots ++ [some p] }

theorem held_handed (b : PoolBench) (p : Page) (pool : PagePool) :
    (b.handed p pool).held = b.held ++ [p] := by
  simp [held, handed]

theorem known_handed (b : PoolBench) (p : Page) (pool : PagePool) :
    (b.handed p pool).known.Perm (p :: (b.held ++ pool.free)) := by
  unfold known
  rw [held_handed, List.append_assoc]
  exact List.perm_middle

theorem Balanced.reused {rest : List Page} (h : Balanced b) (hfree : b.pool.free = q :: rest) :
    Balanced (b.handed q.clear.installCanary
        { b.pool with free := rest, inUse := b.pool.inUse + 1 }) ∧
      Moved 1 0 0 (b.pool.inUse + 1) b (b.handed q.clear.installCanary
        { b.pool with free := rest, inUse := b.pool.inUse + 1 }) := by
  have hlength := congrArg List.length (held_handed b q.clear.installCanary
    { b.pool with free := rest, inUse := b.pool.inUse + 1 })
  rw [List.length_append, List.length_singleton] at hlength
  have hle := h.held_le
  have hallocated := h.allocated
  rw [hfree, List.length_cons] at hallocated
  constructor
  · refine ⟨?_, h.canLayOut, ?_, ?_, h.bounded, h.capacity⟩
    · -- the page that came back last changes places, and is clean
      have hknown : b.known.Perm (q :: (b.held ++ rest)) := by
        unfold known
        rw [hfree]
        exact List.perm_middle
      have hafter := known_handed b q.clear.installCanary
        { b.pool with free := rest, inUse := b.pool.inUse + 1 }
      exact ((h.apart.perm hknown).replace q.clear.installCanary rfl rfl).perm hafter.symm
    · show b.pool.allocated = b.pool.inUse + 1 + rest.length
      omega
    · rw [hlength]
      exact Nat.succ_le_succ hle
  · refine ⟨rfl, rfl, rfl, hlength, rfl, ?_⟩
    show b.pool.allocated = max b.pool.allocated (b.pool.inUse + 1)
    omega

theorem Balanced.grown (h : Balanced b) (hroom : b.pool.inUse < b.pool.capacity)
    (hfree : b.pool.free = []) :
    Balanced (b.handed (Page.zeroed b.pool.allocated b.pool.pageSize).installCanary
        { b.pool with allocated := b.pool.allocated + 1, inUse := b.pool.inUse + 1 }) ∧
      Moved 1 0 0 (b.pool.inUse + 1) b
        (b.handed (Page.zeroed b.pool.allocated b.pool.pageSize).installCanary
          { b.pool with allocated := b.pool.allocated + 1, inUse := b.pool.inUse + 1 }) := by
  have hlength := congrArg List.length (held_handed b
    (Page.zeroed b.pool.allocated b.pool.pageSize).installCanary
    { b.pool with allocated := b.pool.allocated + 1, inUse := b.pool.inUse + 1 })
  rw [List.length_append, List.length_singleton] at hlength
  have hle := h.held_le
  -- nothing is free, so all pages are in use
  have hallocated := h.allocated
  rw [hfree, List.length_nil] at hallocated
  constructor
  · refine ⟨?_, h.canLayOut, ?_, ?_, ?_, h.capacity⟩
    · exact (h.apart.cons rfl rfl).perm (known_handed _ _ _).symm
    · show b.pool.allocated + 1 = b.pool.inUse + 1 + b.pool.free.length
      rw [hfree, List.length_nil]
      omega
    · rw [hlength]
      exact Nat.succ_le_succ hle
    · show b.pool.allocated + 1 ≤ b.pool.capacity
      omega
  · refine ⟨rfl, rfl, rfl, hlength, rfl, ?_⟩
    show b.pool.allocated + 1 = max b.pool.allocated (b.pool.inUse + 1)
    omega

/-- A command that keeps to the rules is carried out, and the bench stays balanced. What it moved shows
in the counters, unless the number of pages that came back wraps. -/
theorem Balanced.perform {c : PoolCommand} (h : Balanced b) (hfair : c.Fair b) :
    ∃ answer b', c.perform b = .ok (answer, b') ∧ Balanced b' ∧
      (b.pool.released < Word.top →
        Moved answer.isPage.toNat c.isFree.toNat c.isDrop.toNat b'.pool.inUse b b') ∧
      answer.isPage.toNat + c.isFree.toNat ≤ 1 := by
  cases c with
  | allocate =>
    rcases Nat.lt_or_ge b.pool.inUse b.pool.capacity with hroom | hfull
    · cases hfree : b.pool.free with
      | cons q rest =>
        exact ⟨_, _, allocate_of_some (h.allocate_of_free hroom hfree), (h.reused hfree).1,
          fun _ => (h.reused hfree).2, Nat.le_refl 1⟩
      | nil =>
        exact ⟨_, _, allocate_of_some (h.allocate_of_nil hroom hfree), (h.grown hroom hfree).1,
          fun _ => (h.grown hroom hfree).2, Nat.le_refl 1⟩
    · exact ⟨_, _, allocate_of_full hfull, h, fun _ => h.still, Nat.zero_le 1⟩
  | free slot =>
    obtain ⟨p, hp⟩ := Option.isSome_iff_exists.mp hfair
    have hsize := h.apart.size p (List.mem_append_left _ (mem_held hp))
    refine ⟨_, _, free_of_held hp hsize, h.back hp, fun hreleased => ?_, Nat.le_refl 1⟩
    exact (h.freed hp (h.regain hp hreleased)).2
  | drop slot =>
    obtain ⟨p, hp⟩ := Option.isSome_iff_exists.mp hfair
    exact ⟨.nothing, b.setSlot slot none, rfl, (h.dropped hp).1, fun _ => (h.dropped hp).2,
      Nat.zero_le 1⟩
  | freeForeign size => exact hfair.elim
  | check slot =>
    refine ⟨_, b, rfl, h, ?_⟩
    rw [isPage_ask fun _ => rfl]
    exact ⟨fun _ => h.still, Nat.zero_le 1⟩
  | install slot =>
    obtain ⟨p, hp⟩ := Option.isSome_iff_exists.mp hfair
    have hinstall : (PoolCommand.install slot).perform b
        = .ok ((b.setSlot slot (some p.installCanary)).ask slot fun p => .flag p.checkCanary,
          b.setSlot slot (some p.installCanary)) := by
      simp only [PoolCommand.perform, hp, Option.map_some]
      rfl
    obtain ⟨hbalanced, hmoved⟩ := h.refilled hp p.installCanary rfl rfl
    refine ⟨_, _, hinstall, hbalanced, ?_⟩
    rw [isPage_ask fun _ => rfl]
    exact ⟨fun _ => hmoved, Nat.zero_le 1⟩
  | write slot offset value =>
    obtain ⟨p, hp, _⟩ := hfair
    have hwrite : (PoolCommand.write slot offset value).perform b
        = .ok (.nothing, b.setSlot slot (some (p.write offset value))) := by
      simp only [PoolCommand.perform, hp, Option.map_some]
      rfl
    obtain ⟨hbalanced, hmoved⟩ := h.refilled hp (p.write offset value) rfl rfl
    exact ⟨_, _, hwrite, hbalanced, fun _ => hmoved, Nat.zero_le 1⟩
  | read slot offset =>
    refine ⟨_, b, rfl, h, ?_⟩
    rw [isPage_ask fun _ => rfl]
    exact ⟨fun _ => h.still, Nat.zero_le 1⟩
  | info => exact ⟨_, b, rfl, h, fun _ => h.still, Nat.zero_le 1⟩

/-! ## Counting along commands -/

theorem Moved.trans {granted freed dropped most granted' freed' dropped' most' most'' : Nat}
    (h : Moved granted freed dropped most b b₁) (h' : Moved granted' freed' dropped' most' b₁ b₂)
    (hmost : max b.pool.allocated (max most most') = max b.pool.allocated most'') :
    Moved (granted + granted') (freed + freed') (dropped + dropped') most'' b b₂ where
  pageSize := h'.pageSize.trans h.pageSize
  capacity := h'.capacity.trans h.capacity
  inUse := by
    have := h.inUse
    have := h'.inUse
    omega
  held := by
    have := h.held
    have := h'.held
    omega
  released := by
    rw [h'.released, h.released, Nat.add_assoc]
  allocated := by
    rw [h'.allocated, h.allocated, Nat.max_assoc, hmost]

theorem countP_cons_toNat {α : Type} (p : α → Bool) (a : α) (l : List α) :
    (a :: l).countP p = (p a).toNat + l.countP p := by
  rw [List.countP_cons, Nat.add_comm]
  cases p a <;> rfl

/-- Commands that keep to the rules are carried out, and the counters are those of the commands. -/
theorem Balanced.after {commands : List PoolCommand} (h : Balanced b) (hfair : Fair commands b)
    (hfew : b.pool.released + commands.length ≤ Word.top) :
    ∃ b', PoolBench.after commands b = .ok b' ∧ Balanced b' ∧
      Moved (granted commands b) (commands.countP (·.isFree)) (commands.countP (·.isDrop))
        (peak commands b) b b' ∧
      granted commands b + commands.countP (·.isFree) ≤ commands.length := by
  induction commands generalizing b with
  | nil => exact ⟨b, rfl, h, h.still, Nat.zero_le _⟩
  | cons c rest ih =>
    obtain ⟨hc, hrest⟩ := hfair
    rw [List.length_cons] at hfew
    obtain ⟨answer, b₁, hperform, hbalanced, hmoved, honce⟩ := h.perform hc
    have hmoved := hmoved (by omega)
    have hfew' : b₁.pool.released + rest.length ≤ Word.top := by
      rw [hmoved.released]
      omega
    obtain ⟨b', hafter, hbalanced', hmoved', hlength⟩ := ih hbalanced (hrest _ _ hperform) hfew'
    have hgranted : granted (c :: rest) b = answer.isPage.toNat + granted rest b₁ := by
      simp only [granted, hperform]
    have hpeak : peak (c :: rest) b = max b.pool.inUse (peak rest b₁) := by
      simp only [peak, hperform]
    rw [hgranted, hpeak, countP_cons_toNat, countP_cons_toNat, List.length_cons]
    refine ⟨b', ?_, hbalanced', hmoved.trans hmoved' ?_, by omega⟩
    · unfold PoolBench.after
      rw [hperform]
      exact hafter
    · have hfirst := inUse_le_peak rest b₁
      have hbefore := h.allocated
      omega

/-! ## The accounts -/

/-- What the counters of a pool of a capacity are after commands, and what it does next. -/
structure Accounts (capacity : Nat) (commands : List PoolCommand) (b₀ b : PoolBench) : Prop where
  inUse : b.pool.inUse + commands.countP (·.isFree) = granted commands b₀
  bounded : b.pool.inUse ≤ capacity
  /-- A page that was dropped keeps its place for ever. -/
  held : b.pool.inUse = b.held.length + commands.countP (·.isDrop)
  released : b.pool.released = commands.countP (·.isFree)
  allocated : b.pool.allocated = b.pool.inUse + b.pool.free.length
  peak : b.pool.allocated = peak commands b₀
  allocated_le : b.pool.allocated ≤ capacity
  /-- A pool that is used up hands out nothing, and nothing changes. -/
  refuses : capacity ≤ b.pool.inUse → PoolCommand.allocate.perform b = .ok (.nothing, b)
  /-- When no page is free, one is made that was not there before. -/
  makes : b.pool.inUse < capacity → b.pool.free = [] → ∃ p, p.number = b.pool.allocated ∧
    (∀ q ∈ b.held, q.number < p.number) ∧
    PoolCommand.allocate.perform b = .ok (.page b.slots.length p, b.handed p
      { b.pool with allocated := b.pool.allocated + 1, inUse := b.pool.inUse + 1 })
  /-- Otherwise the page that came back last goes out again, -/
  reuses : b.pool.inUse < capacity → ∀ q rest, b.pool.free = q :: rest →
    ∃ p, p.number = q.number ∧ (∀ r ∈ b.held, r.number ≠ p.number) ∧
    PoolCommand.allocate.perform b = .ok (.page b.slots.length p, b.handed p
      { b.pool with free := rest, inUse := b.pool.inUse + 1 })
  /-- and a page that comes back is the next one to go out. -/
  takesBack : ∀ slot p, b.page? slot = some p →
    (PoolCommand.free slot).perform b = .ok (.nothing, { b.setSlot slot none with
      pool := { b.pool with
        free := p :: b.pool.free
        released := b.pool.released + 1
        inUse := b.pool.inUse - 1 } })
  /-- The pool does not hear of a page that is dropped. -/
  drops : ∀ slot, (PoolCommand.drop slot).perform b = .ok (.nothing, b.setSlot slot none)

/-- A new bench, whose pool has made no page yet. -/
theorem balanced_of_ofCapacity {pageSize capacity : Nat} {pool : PagePool}
    (hsize : PagePool.canLayOut pageSize = true)
    (hpool : PagePool.ofCapacity pageSize capacity = .ok pool) :
    pool = { pageSize, capacity } ∧ Balanced { pool } := by
  unfold PagePool.ofCapacity reserve at hpool
  split at hpool
  · next hreserve =>
    cases hpool
    unfold PagePool.freeEntryBytes at hreserve
    have hcapacity : capacity < Word.top := by
      unfold Word.top
      omega
    exact ⟨rfl, .nil, hsize, rfl, Nat.le_refl 0, Nat.zero_le _, hcapacity⟩
  · cases hpool

/-- Whatever is done with the pages of a pool by its rules is carried out, and the counters are right
all the time. -/
theorem accounts_of_commands {pageSize capacity : Nat} {pool : PagePool}
    {commands : List PoolCommand} (hpower : Config.isPowerOfTwo pageSize = true)
    (hsize : pageSize ≤ 2 ^ (62 : Nat)) (hpool : PagePool.ofCapacity pageSize capacity = .ok pool)
    (hfair : Fair commands { pool }) (hfew : commands.length ≤ Word.top) :
    ∃ b, after commands { pool } = .ok b ∧ Accounts capacity commands { pool } b := by
  have hlayout : PagePool.canLayOut pageSize = true := by
    rw [PagePool.canLayOut, hpower, Bool.true_and, decide_eq_true_eq]
    omega
  obtain ⟨rfl, hnew⟩ := balanced_of_ofCapacity hlayout hpool
  obtain ⟨b, hafter, h, hmoved, hlength⟩ := hnew.after hfair (by simpa using hfew)
  have hcapacity : b.pool.capacity = capacity := hmoved.capacity
  have hinUse := hmoved.inUse
  have hheld := hmoved.held
  have hreleased := hmoved.released
  have hallocated := h.allocated
  have hbounded := h.bounded
  dsimp only at hinUse hheld hreleased
  refine ⟨b, hafter, ?_⟩
  constructor
  case inUse => omega
  case bounded => omega
  case held =>
    have hnone : ({ pool := { pageSize, capacity } } : PoolBench).held = [] := rfl
    rw [hnone, List.length_nil] at hheld
    omega
  case released => omega
  case allocated => exact hallocated
  case peak => exact hmoved.allocated.trans (Nat.zero_max _)
  case allocated_le => omega
  case refuses => exact fun hfull => allocate_of_full (hcapacity ▸ hfull)
  case makes =>
    intro hroom hfree
    refine ⟨_, rfl, fun q hq => ?_, allocate_of_some (h.allocate_of_nil (hcapacity ▸ hroom) hfree)⟩
    exact h.apart.made q (List.mem_append_left _ hq)
  case reuses =>
    intro hroom q rest hfree
    refine ⟨q.clear.installCanary, rfl, fun r hr => ?_,
      allocate_of_some (h.allocate_of_free (hcapacity ▸ hroom) hfree)⟩
    have hknown : b.known.Perm (q :: (b.held ++ rest)) := by
      unfold known
      rw [hfree]
      exact List.perm_middle
    exact (h.apart.perm hknown).number_ne (List.mem_append_left _ hr)
  case takesBack =>
    intro slot p hp
    have hpage := h.apart.size p (List.mem_append_left _ (mem_held hp))
    -- pages come back at most as often as they go out
    have hroom : b.pool.released < Word.top := by
      unfold Word.top at hfew ⊢
      omega
    rw [free_of_held hp hpage, h.regain hp hroom]
  case drops => exact fun slot => rfl

/-- A pool of two pages: one is dropped and one comes back, and that one goes out again. Then the pool
is used up. -/
theorem accounts_of_commands_one_dropped : ∃ b : PoolBench,
    after [.allocate, .allocate, .allocate, .drop 0, .free 1, .allocate]
      { pool := { pageSize := 4096, capacity := 2 } } = .ok b ∧
    Accounts 2 [.allocate, .allocate, .allocate, .drop 0, .free 1, .allocate]
      { pool := { pageSize := 4096, capacity := 2 } } b ∧
    b.pool.inUse = 2 ∧ b.held.map (·.number) = [1] ∧ b.pool.allocated = 2 ∧ b.pool.released = 1 := by
  have hfair : Fair [.allocate, .allocate, .allocate, .drop 0, .free 1, .allocate]
      { pool := { pageSize := 4096, capacity := 2 } } := by
    refine ⟨trivial, ?_⟩
    rintro _ _ ⟨⟩
    refine ⟨trivial, ?_⟩
    rintro _ _ ⟨⟩
    refine ⟨trivial, ?_⟩
    rintro _ _ ⟨⟩
    refine ⟨rfl, ?_⟩
    rintro _ _ ⟨⟩
    refine ⟨rfl, ?_⟩
    rintro _ _ ⟨⟩
    exact ⟨trivial, fun _ _ _ => trivial⟩
  have hpool : PagePool.ofCapacity 4096 2 = .ok { pageSize := 4096, capacity := 2 } := rfl
  obtain ⟨b, hafter, haccounts⟩ :=
    accounts_of_commands (by decide) (by decide) hpool hfair (by decide)
  refine ⟨b, hafter, haccounts, ?_⟩
  cases hafter
  decide

end PoolBench
end Session
end RoundRobin
