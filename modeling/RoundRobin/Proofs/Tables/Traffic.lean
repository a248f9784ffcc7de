import Mathlib.Data.List.Nodup
import RoundRobin.Proofs.Tables.Ledger
import RoundRobin.Proofs.Tables.Scene

/-!
# Traffic through the containers

Room is reserved at the start for the ready queue, the registry of sleepers, the list of the dead and the
list of free pages. Whatever a critical section does, it puts entries in and takes entries out one after
another. Here is which, and in which order, and that there is always room for the one that is put in.
-/

namespace RoundRobin

/-- The contents of the containers for which room is reserved. -/
structure Stock where
  queue : List ThreadId
  sleepers : List Sleeper
  dead : List ThreadId
  free : List Page

/-- What is in the containers of tables. -/
def Tables.stock {β : Type} (t : Tables β) : Stock where
  queue := t.ready.ids
  sleepers := t.sleepers.sleepers
  dead := t.reclaim
  free := t.pool.free

/-- One entry is put into a container, or entries are taken out of one. -/
inductive Transfer where
  | enqueue (id : ThreadId)
  | dequeue
  | register (s : Sleeper)
  /-- Those whose tick has come leave the registry. -/
  | mature (now : Nat)
  | putAside (id : ThreadId)
  /-- All the dead leave their list. -/
  | collect
  | handOut
  | takeBack (page : Page)

namespace Stock

variable {n : Nat} {s s' s'' : Stock} {l l' : List Transfer}

/-- The contents after a transfer. -/
def apply (s : Stock) : Transfer → Stock
  | .enqueue id => { s with queue := s.queue ++ [id] }
  | .dequeue => { s with queue := s.queue.tail }
  | .register x => { s with sleepers := SleepRegistry.insert x s.sleepers }
  | .mature now => { s with sleepers := s.sleepers.filter fun x => now < x.wakeTick }
  | .putAside id => { s with dead := id :: s.dead }
  | .collect => { s with dead := [] }
  | .handOut => { s with free := s.free.tail }
  | .takeBack page => { s with free := page :: s.free }

/-- Whether there is room for what a transfer puts in, in containers for `n` pages and for `n` threads
and the one that booted. -/
def HasRoom (n : Nat) (s : Stock) : Transfer → Prop
  | .enqueue _ => s.queue.length < n + 1
  | .register _ => s.sleepers.length < n + 1
  | .putAside _ => s.dead.length < n + 1
  | .takeBack _ => s.free.length < n
  | _ => True

/-- Transfers lead from some contents to others, and each of them finds room. -/
def Carries (n : Nat) (s : Stock) : List Transfer → Stock → Prop
  | [], s' => s' = s
  | x :: rest, s' => s.HasRoom n x ∧ (s.apply x).Carries n rest s'

theorem Carries.append (h : s.Carries n l s') (h' : s'.Carries n l' s'') :
    s.Carries n (l ++ l') s'' := by
  induction l generalizing s with
  | nil =>
    obtain rfl : s' = s := h
    exact h'
  | cons x rest ih => exact ⟨h.1, ih h.2⟩

/-- Threads join the queue one after another, if there is room for all. -/
theorem carries_enqueue {ids : List ThreadId} (hroom : s.queue.length + ids.length ≤ n + 1) :
    s.Carries n (ids.map .enqueue) { s with queue := s.queue ++ ids } := by
  induction ids generalizing s with
  | nil =>
    show { s with queue := s.queue ++ [] } = s
    rw [List.append_nil]
  | cons id rest ih =>
    rw [List.length_cons] at hroom
    refine ⟨show s.queue.length < n + 1 by omega, ?_⟩
    have hrest := ih (s := s.apply (.enqueue id)) (by simp [apply]; omega)
    simp only [apply, List.append_assoc, List.singleton_append] at hrest
    exact hrest

/-- Pages come back one after another, likewise. -/
theorem carries_takeBack {page : ThreadId → Option Page} {ids : List ThreadId} {pool : PagePool}
    (hfree : s.free = pool.free) (hroom : s.free.length + ids.length ≤ n) :
    s.Carries n ((ids.filterMap page).map .takeBack)
      { s with free := ((ids.map page).foldl PagePool.regain pool).free } := by
  induction ids generalizing s pool with
  | nil =>
    show { s with free := pool.free } = s
    rw [← hfree]
  | cons i rest ih =>
    rw [List.length_cons] at hroom
    rw [List.filterMap_cons, List.map_cons, List.foldl_cons]
    cases page i with
    | none => exact ih hfree (by omega)
    | some p =>
      have hback : (s.apply (.takeBack p)).free = (pool.regain (some p)).free := congrArg (p :: ·) hfree
      have hrest : (p :: s.free).length + rest.length ≤ n := by
        rw [List.length_cons]
        omega
      exact ⟨show s.free.length < n by omega, ih hback hrest⟩

end Stock

namespace Tables

variable {β : Type} {t t' u : Tables β} {id c : ThreadId} {n now timeSlice : Nat} {way : Way}
  {d : Dispatch} {user asks : Bool}

/-! ## What the critical sections transfer -/

/-- A thread that is ready is queued, unless it is the idle thread. -/
def readyTransfers (id : ThreadId) (t : Tables β) : List Transfer :=
  if t.idle = some id then [] else [.enqueue id]

/-- Those whose tick has come leave the registry, and each of them joins the queue. -/
def wakeTransfers (now : Nat) (t : Tables β) : List Transfer :=
  .mature now :: (t.scene.due now).map .enqueue

/-- Where a thread that leaves is to wait. -/
def markTransfers (c : ThreadId) (t : Tables β) : Way → List Transfer
  | .block => []
  | .yield => t.readyTransfers c
  | .sleep wakeTick => [.register ⟨c, wakeTick⟩]
  | .exit => []

/-- The dead leave their list, and the page of each of them comes back. -/
def reapTransfers (t : Tables β) : List Transfer :=
  .collect :: (t.reclaim.filterMap t.scene.page).map .takeBack

/-- The next thread leaves the queue, and a thread that exits is put aside: not the one that booted, nor
one that gets the processor back. -/
def dispatchTransfers (way : Way) (d : Dispatch) (t : Tables β) : List Transfer :=
  .dequeue :: if way = .exit ∧ d.previous ≠ d.next ∧ t.boot ≠ some d.previous then
    [.putAside d.previous] else []

/-- A thread leaves: it is marked, the dead are removed, and the next thread comes. -/
def leaveTransfers (way : Way) (d : Dispatch) (t : Tables β) : List Transfer :=
  t.markTransfers d.previous way ++ t.reapTransfers ++ t.dispatchTransfers way d

/-! ## There is room for all of it -/

/-- What is in the containers of tables fits into what is reserved for `n` threads and the one that
booted. The running thread is in no container. -/
structure Fits (n : Nat) (t : Tables β) : Prop where
  threads : t.ready.ids.length + t.sleepers.sleepers.length + t.reclaim.length + 1 ≤ t.threads.size
  live : t.threads.size ≤ n + 1
  pages : t.pool.free.length + t.reclaim.length ≤ n

/-- No thread is in two containers, and the running thread is in none. -/
theorem Sound.length_containers_lt (hsound : Sound t) :
    t.ready.ids.length + t.sleepers.sleepers.length + t.reclaim.length + 1 ≤ t.threads.size := by
  obtain ⟨c, cth, hc, hcth, _⟩ := hsound.current_runs
  have hdisjoint : ∀ l l' : Link, l ≠ .unlinked → l' ≠ .unlinked → l ≠ l' →
      (t.members l).Disjoint (t.members l') := by
    intro l l' hl hl' hne i hi hi'
    rw [hsound.mem_iff l hl] at hi
    rw [hsound.mem_iff l' hl', hi, Option.some.injEq] at hi'
    exact hne hi'
  have hnodup : (c :: (t.members .ready ++ (t.members .sleeping ++ t.members .reclaim))).Nodup := by
    refine List.nodup_cons.mpr ⟨?_, ?_⟩
    · simp only [List.mem_append, not_or]
      exact ⟨hsound.current_not_mem hc nofun, hsound.current_not_mem hc nofun,
        hsound.current_not_mem hc nofun⟩
    · refine (hsound.nodup .ready).append ((hsound.nodup .sleeping).append (hsound.nodup .reclaim)
        (hdisjoint _ _ nofun nofun nofun)) ?_
      exact List.disjoint_append_right.mpr
        ⟨hdisjoint _ _ nofun nofun nofun, hdisjoint _ _ nofun nofun nofun⟩
  have hlive : ∀ i ∈ c :: (t.members .ready ++ (t.members .sleeping ++ t.members .reclaim)),
      ∃ th, t.threads.find? i = some th := by
    intro i hi
    rw [List.mem_cons, List.mem_append, List.mem_append] at hi
    have hfound : ∀ l : Link, l ≠ .unlinked → i ∈ t.members l → ∃ th, t.threads.find? i = some th :=
      fun l hl hmem => ((hsound.mem_iff_link hl).mp hmem).imp fun _ h => h.1
    rcases hi with rfl | hi | hi | hi
    · exact ⟨cth, hcth⟩
    · exact hfound .ready nofun hi
    · exact hfound .sleeping nofun hi
    · exact hfound .reclaim nofun hi
  have hlength := ThreadTable.length_le_size hnodup hlive
  simp only [List.length_cons, List.length_append, members, List.length_map] at hlength
  omega

/-- Sound tables fit when no more pages were made than there is room for. -/
theorem Sound.fits {made : Nat} (hsound : Sound t) (hhoused : Housed t) (hledger : Ledger made t)
    (hcapacity : t.pool.capacity = n) (hallocated : t.pool.allocated ≤ n) : Fits n t := by
  have hthreads := hsound.length_containers_lt
  have hinUse := hhoused.inUse
  have hbounded := hhoused.bounded
  have hbalance := hledger.allocated
  constructor
  · exact hthreads
  · split at hinUse <;> omega
  · -- each of the dead still has its page, and so has no free page
    split at hinUse <;> omega

/-! ## Sections, one after the other -/

theorem Fits.queue_lt (h : Fits n t) : t.ready.ids.length < n + 1 := by
  have hthreads := h.threads
  have hlive := h.live
  omega

theorem carries_unblock (hroom : t.ready.ids.length < n + 1) (hu : t.unblock id = .ok t') :
    t.stock.Carries n (t.readyTransfers id) t'.stock := by
  obtain ⟨_, _, rfl⟩ := unblock_eq_ok_iff.mp hu
  unfold readyTransfers readied
  split
  · rfl
  · exact ⟨hroom, rfl⟩

/-- A wake moves threads from one container to another. -/
theorem Fits.carries_tick (h : Fits n t) (hsound : Sound t) (hord : t.sleepers.Ordered)
    (ht : t.tick user now timeSlice = .ok (asks, t')) :
    t.stock.Carries n (t.wakeTransfers now) t'.stock := by
  obtain ⟨c, _, hc, _⟩ := hsound.current_runs
  have hscene := (hsound.scene_of_tick hord hc ht).1
  have hqueue : t'.ready.ids = t.ready.ids ++ t.scene.due now := congrArg Scene.queue hscene
  have hsleepers : t'.sleepers.sleepers = t.sleepers.sleepers.filter fun x => now < x.wakeTick :=
    congrArg Scene.sleepers hscene
  have hdead : t'.reclaim = t.reclaim := congrArg Scene.dead hscene
  have hpool : t'.pool = t.pool := congrArg Scene.pool hscene
  have hfew : (t.scene.due now).length ≤ t.sleepers.sleepers.length := by
    unfold Scene.due
    rw [List.length_map]
    exact List.length_filter_le _ _
  have hthreads := h.threads
  have hlive := h.live
  have hafter : t'.stock = { t.stock.apply (.mature now) with
      queue := t.ready.ids ++ t.scene.due now } := by
    unfold stock
    rw [hqueue, hsleepers, hdead, hpool]
    rfl
  rw [hafter]
  exact ⟨trivial, Stock.carries_enqueue (show t.ready.ids.length + _ ≤ _ by omega)⟩

/-- A tick moves nobody out of the containers. -/
theorem Fits.tick (h : Fits n t) (hsound : Sound t) (ht : t.tick user now timeSlice = .ok (asks, t')) :
    Fits n t' := by
  have hsteady := steady_tick ht
  exact ⟨(hsound.tick ht).length_containers_lt, hsteady.size ▸ h.live, by
    rw [hsteady.pool, hsteady.reclaim]
    exact h.pages⟩

theorem Fits.carries_mark (h : Fits n t) (way : Way) (c : ThreadId) :
    t.stock.Carries n (t.markTransfers c way) (t.marked way c).stock := by
  have hthreads := h.threads
  have hlive := h.live
  cases way with
  | block => rfl
  | exit => rfl
  | sleep w => exact ⟨show t.sleepers.sleepers.length < n + 1 by omega, rfl⟩
  | yield =>
    unfold markTransfers readyTransfers marked
    dsimp only
    split
    · rfl
    · exact ⟨h.queue_lt, rfl⟩

/-- The dead are no more than fit beside the free pages. -/
theorem Fits.carries_reap (h : Fits n t) {s : Stock} (hfree : s.free = t.pool.free) :
    s.Carries n t.reapTransfers { s with dead := [], free := t.scene.bury.pool.free } := by
  have hpages := h.pages
  have hroom : s.free.length + t.reclaim.length ≤ n := by rwa [hfree]
  exact ⟨trivial, Stock.carries_takeBack (s := s.apply .collect) hfree hroom⟩

/-- A decision puts aside one thread at most, after all the others have been removed. -/
theorem Fits.carries_leave (h : Fits n t) (hsound : Sound t) (hl : t.leave way = .ok (d, t')) :
    t.stock.Carries n (t.leaveTransfers way d) t'.stock := by
  have hparting := parting_of_leave hl
  have hreap := h.carries_reap (s := (t.marked way d.previous).stock)
    (congrArg PagePool.free pool_marked)
  refine ((h.carries_mark way d.previous).append hreap).append ⟨trivial, ?_⟩
  have hafter : t'.stock = ⟨(t.marked way d.previous).ready.ids.tail,
      (t.marked way d.previous).sleepers.sleepers, t'.reclaim, t.scene.bury.pool.free⟩ := by
    unfold stock
    rw [hparting.queue, hparting.sleepers, hsound.pool_of_leave hl]
  rw [hafter, reclaim_of_leave hl]
  split
  · exact ⟨Nat.succ_pos n, rfl⟩
  · rfl

end Tables
end RoundRobin
