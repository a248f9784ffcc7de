import RoundRobin.Proofs.Tables.Reclaim

/-!
# The ledger of pages and threads

Every page that was made is with one thread or in the free list, never in two places, and the counters
of the pool say how many there are of each. What was handed out and came back is counted against the
threads that were made. The thread that booted stands outside: it has an id, and no page.
-/

namespace RoundRobin.Tables

variable {β : Type} {t t' u : Tables β} {id i j : ThreadId} {th : Thread β} {way : Way}
  {d : Dispatch} {made n : Nat} {page : Page} {pool : PagePool}

/-- A thread has the page of a number. -/
def Owns (t : Tables β) (i : ThreadId) (n : Nat) : Prop :=
  ∃ th page, t.threads.find? i = some th ∧ th.page = some page ∧ page.number = n

/-- Whether the thread that boots is there yet, as a count. -/
def booted (t : Tables β) : Nat := if t.boot.isSome then 1 else 0

/-- Pages and threads add up when `made` threads were made, apart from the one that booted. -/
structure Ledger (made : Nat) (t : Tables β) : Prop where
  boot : ∀ b, t.boot = some b → ∀ n, ¬ t.Owns b n
  owned : ∀ i n, t.Owns i n → n < t.pool.allocated
  unshared : ∀ i j n, t.Owns i n → t.Owns j n → i = j
  free : ∀ page ∈ t.pool.free, page.number < t.pool.allocated
  distinct : (t.pool.free.map (·.number)).Nodup
  /-- A page in the free list is nobody's. -/
  unowned : ∀ i n, t.Owns i n → n ∉ t.pool.free.map (·.number)
  allocated : t.pool.allocated = t.pool.inUse + t.pool.free.length
  released : t.threads.size + t.pool.released = made + t.booted

theorem Owns.of_survive (h : u.Owns i n) (hsurvive : Survive t u) : t.Owns i n := by
  obtain ⟨th, page, hth, hpage, hn⟩ := h
  obtain ⟨th₀, hth₀, hsame⟩ := hsurvive i th hth
  exact ⟨th₀, page, hth₀, hsame.page.symm.trans hpage, hn⟩

/-- Tables in which nothing was done yet. -/
theorem ledger_of_empty (hthreads : t.threads = .empty) (hboot : t.boot = none)
    (hfree : t.pool.free = []) (hallocated : t.pool.allocated = 0) (hinUse : t.pool.inUse = 0)
    (hreleased : t.pool.released = 0) : Ledger 0 t := by
  have hnobody : ∀ i n, ¬ t.Owns i n := by
    rintro i n ⟨th, _, hth, _⟩
    rw [hthreads] at hth
    cases hth
  refine ⟨fun b _ n => hnobody b n, fun i n hi => absurd hi (hnobody i n),
    fun i _ n hi => absurd hi (hnobody i n), fun p hp => ?_, ?_, fun i n hi => absurd hi (hnobody i n),
    ?_, ?_⟩
  · rw [hfree] at hp
    cases hp
  · rw [hfree]
    exact List.nodup_nil
  · rw [hallocated, hinUse, hfree]
    rfl
  · rw [hthreads, hreleased, booted, hboot]
    rfl

/-- Where no page changes hands and as many threads live, the ledger stays as it is. -/
theorem Ledger.congr (h : Ledger made t) (hsurvive : Survive t u) (hpool : u.pool = t.pool)
    (hboot : u.boot = t.boot) (hsize : u.threads.size = t.threads.size) : Ledger made u := by
  have howns : ∀ i n, u.Owns i n → t.Owns i n := fun i n hu => hu.of_survive hsurvive
  constructor
  · intro b hb n hu
    exact h.boot b (hboot ▸ hb) n (howns b n hu)
  · intro i n hu
    rw [hpool]
    exact h.owned i n (howns i n hu)
  · exact fun i j n hi hj => h.unshared i j n (howns i n hi) (howns j n hj)
  · rw [hpool]
    exact h.free
  · rw [hpool]
    exact h.distinct
  · intro i n hu
    rw [hpool]
    exact h.unowned i n (howns i n hu)
  · rw [hpool]
    exact h.allocated
  · rw [hsize, hpool, booted, hboot]
    exact h.released

theorem Ledger.steady (h : Ledger made t) (hsteady : Steady t u) : Ledger made u :=
  h.congr hsteady.survive hsteady.pool hsteady.boot hsteady.size

/-! ## A new thread -/

/-- Who owns a page after a thread was made. -/
theorem owns_inserted (hpage : th.page = some page)
    (h : ({ t with pool }.insertThread th).Owns i n) : (i = th.id ∧ n = page.number) ∨ t.Owns i n := by
  obtain ⟨u, p, hu, hp, rfl⟩ := h
  replace hu := (ThreadTable.find?_insert t.threads th i).symm.trans hu
  split at hu
  · next hi =>
    rw [← Option.some.inj hu, hpage, Option.some.injEq] at hp
    exact .inl ⟨hi, by rw [hp]⟩
  · exact .inr ⟨u, p, hu, hp, rfl⟩

/-- The page that goes out was in the free list, or else it was not there before. -/
theorem Ledger.allocated_page (h : Ledger made t) (hhoused : Housed t)
    (hpool : t.pool.allocate = some (page, pool)) :
    (∀ i, ¬ t.Owns i page.number) ∧ page.number ∉ pool.free.map (·.number) ∧
      page.number < pool.allocated ∧ t.pool.allocated ≤ pool.allocated ∧
      pool.allocated = pool.inUse + pool.free.length := by
  obtain ⟨hless, _, _, hrest⟩ := PagePool.of_allocate hpool
  have hfits := hhoused.fits
  have hinUse : pool.inUse = t.pool.inUse + 1 := by
    rw [hrest]
    exact Word.wrapSucc_eq (by omega)
  have hfree : pool.free = t.pool.free.tail := by rw [hrest]
  have hallocated := h.allocated
  rcases PagePool.number_of_allocate hpool with ⟨p, rest, hold, hp, hsame⟩ | ⟨hempty, hp, hnext⟩
  · have hdistinct := h.distinct
    rw [hold, List.map_cons, List.nodup_cons] at hdistinct
    rw [hp, hsame, hfree, hold, List.tail_cons, hinUse]
    rw [hold, List.length_cons] at hallocated
    refine ⟨fun i hi => h.unowned i _ hi ?_, hdistinct.1, h.free p ?_, Nat.le_refl _, by omega⟩
    · rw [hold]
      exact List.mem_cons_self
    · rw [hold]
      exact List.mem_cons_self
  · rw [hempty, List.length_nil] at hallocated
    rw [Word.wrapSucc_eq (by omega)] at hnext
    rw [hp, hnext, hfree, hempty, hinUse]
    refine ⟨fun i hi => ?_, nofun, Nat.lt_succ_self _, Nat.le_succ _, by simp; omega⟩
    exact Nat.lt_irrefl _ (h.owned i _ hi)

/-- A new thread has a page that was nobody's. -/
theorem Ledger.inserted (h : Ledger made t) (hhoused : Housed t)
    (hpool : t.pool.allocate = some (page, pool)) (hfresh : t.threads.find? th.id = none)
    (hpage : th.page = some page) (hboot : t.boot ≠ some th.id) :
    Ledger (made + 1) ({ t with pool }.insertThread th) := by
  obtain ⟨_, _, _, hrest⟩ := PagePool.of_allocate hpool
  have hfree : pool.free = t.pool.free.tail := by rw [hrest]
  have hreleased : pool.released = t.pool.released := by rw [hrest]
  obtain ⟨hnew, hout, hmade, hgrows, hbalance⟩ := h.allocated_page hhoused hpool
  have hsub : ∀ m ∈ pool.free.map (·.number), m ∈ t.pool.free.map (·.number) := by
    intro m hm
    rw [hfree, List.map_tail] at hm
    exact List.mem_of_mem_tail hm
  constructor
  · intro b hb m hu
    rcases owns_inserted hpage hu with ⟨rfl, _⟩ | hold
    · exact hboot hb
    · exact h.boot b hb m hold
  · intro i m hu
    show m < pool.allocated
    rcases owns_inserted hpage hu with ⟨_, rfl⟩ | hold
    · exact hmade
    · exact Nat.lt_of_lt_of_le (h.owned i m hold) hgrows
  · intro i j m hi hj
    rcases owns_inserted hpage hi with ⟨rfl, rfl⟩ | hi'
    · rcases owns_inserted hpage hj with ⟨rfl, _⟩ | hj'
      · rfl
      · exact absurd hj' (hnew j)
    · rcases owns_inserted hpage hj with ⟨rfl, rfl⟩ | hj'
      · exact absurd hi' (hnew i)
      · exact h.unshared i j m hi' hj'
  · intro p hp
    obtain ⟨p', hp', hsame⟩ := List.mem_map.mp (hsub _ (List.mem_map_of_mem hp))
    exact Nat.lt_of_lt_of_le (hsame ▸ h.free p' hp') hgrows
  · show (pool.free.map (·.number)).Nodup
    rw [hfree, List.map_tail]
    exact h.distinct.sublist (List.tail_sublist _)
  · intro i m hu
    rcases owns_inserted hpage hu with ⟨_, rfl⟩ | hold
    · exact hout
    · exact fun hm => h.unowned i m hold (hsub m hm)
  · exact hbalance
  · -- one thread more in the table, and one more was made
    show (t.threads.insert th).size + pool.released = made + 1 + t.booted
    have hbefore := h.released
    rw [ThreadTable.size_insert hfresh, hreleased]
    omega

/-- The thread that booted is there, and owns no page. -/
theorem Ledger.adopted (h : Ledger made t) (hthreads : t.threads = .empty) (hboot : t.boot = none)
    (hpage : th.page = none) :
    Ledger made { t.insertThread th with current := some th.id, boot := some th.id } := by
  have hnobody : ∀ i n, ¬ ({ t.insertThread th with
      current := some th.id, boot := some th.id } : Tables β).Owns i n := by
    rintro i n ⟨u, p, hu, hp, _⟩
    replace hu := (ThreadTable.find?_insert t.threads th i).symm.trans hu
    split at hu
    · rw [← Option.some.inj hu, hpage] at hp
      cases hp
    · rw [hthreads] at hu
      cases hu
  refine ⟨fun b _ n => hnobody b n, fun i n hi => absurd hi (hnobody i n),
    fun i _ n hi => absurd hi (hnobody i n), h.free, h.distinct, fun i n hi => absurd hi (hnobody i n),
    h.allocated, ?_⟩
  have hreleased := h.released
  have hsize : (t.threads.insert th).size = t.threads.size + 1 :=
    ThreadTable.size_insert (by rw [hthreads]; rfl)
  rw [booted, hboot] at hreleased
  show (t.threads.insert th).size + t.pool.released = made + 1
  rw [hsize]
  have : (if (none : Option ThreadId).isSome then 1 else 0) = 0 := rfl
  omega

/-! ## Decisions -/

/-- A thread that waits to be reclaimed still has a page, -/
theorem Sound.page_of_pending (hsound : Sound t) (hhoused : Housed t) (hi : i ∈ t.reclaim) :
    ∃ th page, t.threads.find? i = some th ∧ th.page = some page := by
  obtain ⟨th, hth, hlink⟩ := (hsound.mem_iff_link (l := .reclaim) nofun).mp hi
  cases hpage : th.page with
  | none =>
    -- only the thread that booted has no page, and it is never reclaimed
    exact absurd (hhoused.paged i th hth hpage) ((hsound.status_of_link hth).2.2 hlink).2
  | some page => exact ⟨th, page, hth, hpage⟩

/-- which its removal gives back. -/
theorem Sound.page_of_leave (hsound : Sound t) (hhoused : Housed t) (hone : t.reclaim = [i])
    (hl : t.leave way = .ok (d, t')) : ∃ th page, t.threads.find? i = some th ∧
      th.page = some page ∧ t'.pool = t.pool.regain (some page) ∧
      t'.threads.size + 1 = t.threads.size := by
  obtain ⟨th, hth, hpool, hsize⟩ := pool_of_leave_singleton hsound hone hl
  obtain ⟨th', page, hth', hpage⟩ :=
    hsound.page_of_pending hhoused (hone ▸ List.mem_singleton.mpr rfl)
  rw [hth, Option.some.injEq] at hth'
  subst hth'
  exact ⟨th, page, hth, hpage, hpage ▸ hpool, hsize⟩

/-- The page comes back to the front of the free list, and is counted as such. -/
theorem Ledger.page_of_leave (h : Ledger made t) (hsound : Sound t) (hhoused : Housed t)
    (hone : t.reclaim = [i]) (hmade : made < Word.top) (hl : t.leave way = .ok (d, t')) :
    ∃ th page, t.threads.find? i = some th ∧ th.page = some page ∧
      t'.threads.size + 1 = t.threads.size ∧ 0 < t.pool.inUse ∧
      t'.pool = { t.pool with
        free := page :: t.pool.free
        released := t.pool.released + 1
        inUse := t.pool.inUse - 1 } := by
  obtain ⟨th, page, hth, hpage, hpool, hsize⟩ := hsound.page_of_leave hhoused hone hl
  refine ⟨th, page, hth, hpage, hsize, ?_⟩
  have hsome : 1 ≤ t'.threads.size := by
    obtain ⟨c, cth, _, hcth, _⟩ := (hsound.leave hl).current_runs
    have hlive : ∀ i ∈ [c], ∃ th, t'.threads.find? i = some th := by
      intro i hi
      exact ⟨cth, List.mem_singleton.mp hi ▸ hcth⟩
    exact ThreadTable.length_le_size (by simp) hlive
  have hinUse := hhoused.inUse
  have hbounded := hhoused.bounded
  have hfits := hhoused.fits
  have hreleased := h.released
  have hbooted : t.booted ≤ 1 := by
    unfold booted
    split <;> omega
  -- two threads at least, so one of them has a page
  have hused : 0 < t.pool.inUse := by
    split at hinUse <;> omega
  refine ⟨hused, hpool.trans ?_⟩
  unfold PagePool.regain
  dsimp only
  rw [Word.wrapSucc_eq (by omega), Word.wrapPred_eq hused (by omega)]

/-- The page of the thread that is removed goes back, and with it the ledger is balanced again. -/
theorem Ledger.leave (h : Ledger made t) (hsound : Sound t) (hhoused : Housed t)
    (hone : t.reclaim.length ≤ 1) (hmade : made < Word.top) (hl : t.leave way = .ok (d, t')) :
    Ledger made t' := by
  have hparting := parting_of_leave hl
  rcases pending_cases hone with hnone | ⟨i, hreclaim⟩
  · obtain ⟨hpool, hsize⟩ := pool_of_leave_nil hnone hl
    exact h.congr hparting.survive hpool hparting.boot hsize
  · obtain ⟨th, page, hth, hpage, hsize, hused, hpool⟩ :=
      h.page_of_leave hsound hhoused hreclaim hmade hl
    have howner : t.Owns i page.number := ⟨th, page, hth, hpage, rfl⟩
    have howns : ∀ j n, t'.Owns j n → t.Owns j n ∧ j ≠ i := by
      intro j n hj
      refine ⟨hj.of_survive hparting.survive, fun heq => ?_⟩
      obtain ⟨th', _, hth', _⟩ := hj
      rw [heq, gone_of_leave hl (hreclaim ▸ List.mem_singleton.mpr rfl)] at hth'
      cases hth'
    have hallocated := h.allocated
    have hreleased := h.released
    constructor
    · exact fun b hb n hu => h.boot b (hparting.boot ▸ hb) n (howns b n hu).1
    · rw [hpool]
      exact fun j n hj => h.owned j n (howns j n hj).1
    · exact fun j k n hj hk => h.unshared j k n (howns j n hj).1 (howns k n hk).1
    · rw [hpool]
      intro p hp
      rcases List.mem_cons.mp hp with rfl | hp
      · exact h.owned i p.number howner
      · exact h.free p hp
    · rw [hpool, List.map_cons, List.nodup_cons]
      exact ⟨h.unowned i page.number howner, h.distinct⟩
    · rw [hpool, List.map_cons]
      intro j n hj hn
      obtain ⟨hold, hne⟩ := howns j n hj
      rcases List.mem_cons.mp hn with rfl | hn
      · exact hne (h.unshared j i _ hold howner)
      · exact h.unowned j n hold hn
    · rw [hpool]
      show t.pool.allocated = t.pool.inUse - 1 + (t.pool.free.length + 1)
      omega
    · rw [hpool, booted, hparting.boot, ← booted]
      show t'.threads.size + (t.pool.released + 1) = made + t.booted
      omega

end RoundRobin.Tables
