import RoundRobin.Proofs.Tables.Frame

/-!
# Pages are accounted for

Every thread but the one that booted owns a page of the pool, and the pool counts as many pages in use
as there are such threads. This is `Housed`. It bounds the number of threads, and with it the length of
the ready queue, by what was reserved at the start.
-/

namespace RoundRobin.Tables

variable {β : Type} {t t' u : Tables β} {id c n i : ThreadId} {th : Thread β} {way : Way}
  {d : Dispatch}

/-- Threads are intact, and the pages of the pool are with them or back in the pool. -/
structure Housed (t : Tables β) : Prop where
  intact : ∀ id th, t.threads.find? id = some th → th.isIntact = true
  paged : ∀ id th, t.threads.find? id = some th → th.page = none → t.boot = some id
  pageSize : ∀ id th, t.threads.find? id = some th → ∀ page ∈ th.page,
    page.size = t.pool.pageSize
  freeSize : ∀ page ∈ t.pool.free, page.size = t.pool.pageSize
  inUse : t.pool.inUse + (if t.boot.isSome then 1 else 0) = t.threads.size
  bounded : t.pool.inUse ≤ t.pool.capacity
  fits : t.pool.capacity < Word.top
  room : t.pool.capacity < t.ready.capacity

/-- No more threads are in the table than the queue has room for. -/
theorem Housed.size_le (h : Housed t) : t.threads.size ≤ t.ready.capacity := by
  have hinUse := h.inUse
  have hbounded := h.bounded
  have hroom := h.room
  split at hinUse <;> omega

/-- Tables in which nothing was done yet. -/
theorem housed_of_empty (hthreads : t.threads = .empty) (hboot : t.boot = none)
    (hfree : t.pool.free = []) (hinUse : t.pool.inUse = 0) (hfits : t.pool.capacity < Word.top)
    (hroom : t.pool.capacity < t.ready.capacity) : Housed t := by
  have hnobody : ∀ i, t.threads.find? i = none := fun i => by rw [hthreads]; rfl
  refine ⟨fun i th hth => ?_, fun i th hth => ?_, fun i th hth => ?_, fun p hp => ?_, ?_, ?_, hfits,
    hroom⟩
  · rw [hnobody] at hth; cases hth
  · rw [hnobody] at hth; cases hth
  · rw [hnobody] at hth; cases hth
  · rw [hfree] at hp; cases hp
  · rw [hinUse, hboot, hthreads]; rfl
  · rw [hinUse]; exact Nat.zero_le _

/-! ## Sections that make no thread and free none -/

/-- Threads that only change what they are doing stay housed. -/
theorem Housed.congr (h : Housed t) (hsurvive : Survive t u)
    (hsize : u.threads.size = t.threads.size) (hpool : u.pool = t.pool) (hboot : u.boot = t.boot)
    (hcapacity : u.ready.capacity = t.ready.capacity) : Housed u := by
  constructor
  · intro i th hth
    obtain ⟨th₀, hth₀, hsame⟩ := hsurvive i th hth
    rw [hsame.isIntact]
    exact h.intact i th₀ hth₀
  · intro i th hth hnone
    obtain ⟨th₀, hth₀, hsame⟩ := hsurvive i th hth
    rw [hboot]
    exact h.paged i th₀ hth₀ (hsame.page.symm.trans hnone)
  · intro i th hth page hpage
    obtain ⟨th₀, hth₀, hsame⟩ := hsurvive i th hth
    rw [hpool]
    exact h.pageSize i th₀ hth₀ page (hsame.page ▸ hpage)
  · rw [hpool]; exact h.freeSize
  · rw [hpool, hboot, hsize]; exact h.inUse
  · rw [hpool]; exact h.bounded
  · rw [hpool]; exact h.fits
  · rw [hpool, hcapacity]; exact h.room

theorem Housed.steady (h : Housed t) (hsteady : Steady t u) : Housed u :=
  h.congr hsteady.survive hsteady.size hsteady.pool hsteady.boot hsteady.capacity

theorem size_handedOver : (t.handedOver c n).threads.size = t.threads.size := by
  have hinstall : (t.popped.install n).threads.size = t.threads.size :=
    ThreadTable.size_modify _
  unfold handedOver
  dsimp only
  split
  · exact hinstall
  · refine Eq.trans ?_ hinstall
    unfold retired
    split
    · exact ThreadTable.size_modify _
    · rfl

theorem Housed.handedOver (h : Housed t) : Housed (t.handedOver c n) := by
  have hfields : (t.handedOver c n).pool = t.pool ∧ (t.handedOver c n).boot = t.boot ∧
      (t.handedOver c n).ready.capacity = t.ready.capacity := by
    rw [rest_handedOver]; exact ⟨rfl, rfl, rfl⟩
  exact h.congr survive_handedOver size_handedOver hfields.1 hfields.2.1 hfields.2.2

/-! ## A new thread -/

/-- A new thread gets a page of the pool. -/
theorem Housed.inserted {page : Page} {pool : PagePool} (h : Housed t)
    (hpool : t.pool.allocate = some (page, pool)) (hfresh : t.threads.find? th.id = none)
    (hmagic : th.magic = Thread.magicNumber) (hpage : th.page = some page) :
    Housed ({ t with pool }.insertThread th) := by
  obtain ⟨hless, hcanary, hsize, hrest⟩ := PagePool.of_allocate hpool
  have hfits := h.fits
  -- the count of pages in use cannot wrap, as the pool is smaller than a word
  have hone : Word.wrapSucc t.pool.inUse = t.pool.inUse + 1 := Word.wrapSucc_eq (by omega)
  have hfind : ∀ i u, ({ t with pool }.insertThread th).threads.find? i = some u →
      u = th ∨ t.threads.find? i = some u := by
    intro i u hu
    replace hu := (ThreadTable.find?_insert t.threads th i).symm.trans hu
    split at hu
    · exact .inl (Option.some.inj hu).symm
    · exact .inr hu
  have hfields : pool.pageSize = t.pool.pageSize ∧ pool.free = t.pool.free.tail ∧
      pool.inUse = t.pool.inUse + 1 ∧ pool.capacity = t.pool.capacity := by
    rw [hrest, hone]
    exact ⟨rfl, rfl, rfl, rfl⟩
  obtain ⟨hps, hfree, hinUse, hcap⟩ := hfields
  constructor
  · intro i u hu
    rcases hfind i u hu with rfl | hold
    · unfold Thread.isIntact
      rw [hmagic, hpage]
      simpa using hcanary
    · exact h.intact i u hold
  · intro i u hu hnone
    rcases hfind i u hu with rfl | hold
    · rw [hpage] at hnone
      cases hnone
    · exact h.paged i u hold hnone
  · intro i u hu p hp
    show p.size = pool.pageSize
    rw [hps]
    rcases hfind i u hu with rfl | hold
    · rw [hpage, Option.mem_some_iff] at hp
      rw [← hp]
      exact hsize h.freeSize
    · exact h.pageSize i u hold p hp
  · intro p hp
    show p.size = pool.pageSize
    rw [hps]
    exact h.freeSize p (List.mem_of_mem_tail (hfree ▸ hp))
  · -- one thread more and one page more
    show pool.inUse + _ = (t.threads.insert th).size
    rw [ThreadTable.size_insert hfresh, hinUse, ← h.inUse, Nat.add_right_comm]
    rfl
  · show pool.inUse ≤ pool.capacity
    omega
  · show pool.capacity < Word.top
    omega
  · show pool.capacity < t.ready.capacity
    have := h.room
    omega

/-- The thread that booted owns no page, and is the only one that does not. -/
theorem Housed.adopted (h : Housed t) (hthreads : t.threads = .empty) (hboot : t.boot = none)
    (hmagic : th.magic = Thread.magicNumber) (hpage : th.page = none) :
    Housed { t.insertThread th with current := some th.id, boot := some th.id } := by
  have hfind : ∀ i u, (t.insertThread th).threads.find? i = some u → u = th ∧ i = th.id := by
    intro i u hu
    replace hu := (ThreadTable.find?_insert t.threads th i).symm.trans hu
    split at hu
    · next hi => exact ⟨(Option.some.inj hu).symm, hi⟩
    · rw [hthreads] at hu
      cases hu
  have hinUse := h.inUse
  rw [hboot, hthreads] at hinUse
  constructor
  · intro i u hu
    obtain ⟨rfl, _⟩ := hfind i u hu
    unfold Thread.isIntact
    rw [hmagic, hpage]
    rfl
  · intro i u hu _
    rw [(hfind i u hu).2]
  · intro i u hu p hp
    rw [(hfind i u hu).1, hpage] at hp
    cases hp
  · exact h.freeSize
  · -- one thread more, and it is the one that booted
    show t.pool.inUse + 1 = (t.threads.insert th).size
    have hsize : (t.threads.insert th).size = t.threads.size + 1 :=
      ThreadTable.size_insert (by rw [hthreads]; rfl)
    rw [hsize, hthreads, ← hinUse]
    rfl
  · exact h.bounded
  · exact h.fits
  · exact h.room

/-! ## The dead -/

/-- Threads that may be removed: they died, did not boot, and `c` is none of them. -/
def Doomed (c : ThreadId) (ids : List ThreadId) (t : Tables β) : Prop :=
  ∀ i ∈ ids, i ≠ c ∧ ∀ th, t.threads.find? i = some th → th.status = .dying ∧ t.boot ≠ some i

/-- While another thread lives, removing one gives the pool its page back. -/
theorem Housed.removed (h : Housed t) (hdistinct : t.threads.Distinct)
    (hc : ∃ cth, t.threads.find? c = some cth) (hth : t.threads.find? id = some th) (hne : id ≠ c)
    {page : Page} (hpage : th.page = some page) : Housed (t.removed th) := by
  have hid := ThreadTable.id_of_find? hth
  have hsize := hdistinct.size_erase hth
  rw [← hid] at hsize
  -- two threads live, and one of them at most has no page of the pool
  have htwo : 2 ≤ t.threads.size := by
    have hnodup : [id, c].Nodup := by simpa using hne
    refine ThreadTable.length_le_size hnodup fun i hi => ?_
    rcases List.mem_cons.mp hi with rfl | hi
    · exact ⟨th, hth⟩
    · rw [List.mem_singleton.mp hi]
      exact hc
  have hinUse := h.inUse
  have hpred : Word.wrapPred t.pool.inUse = t.pool.inUse - 1 := by
    have hbounded := h.bounded
    have hfits := h.fits
    split at hinUse <;> exact Word.wrapPred_eq (by omega) (by omega)
  have hfind : ∀ i u, (t.removed th).threads.find? i = some u → t.threads.find? i = some u := by
    intro i u hu
    replace hu := (ThreadTable.find?_erase t.threads th.id i).symm.trans hu
    split at hu
    · cases hu
    · exact hu
  have hfields : (t.removed th).pool = { t.pool with
      free := page :: t.pool.free
      released := Word.wrapSucc t.pool.released
      inUse := Word.wrapPred t.pool.inUse } := by
    unfold Tables.removed
    rw [hpage]
    rfl
  constructor
  · exact fun i u hu => h.intact i u (hfind i u hu)
  · exact fun i u hu => h.paged i u (hfind i u hu)
  · rw [hfields]
    exact fun i u hu => h.pageSize i u (hfind i u hu)
  · rw [hfields]
    intro p hp
    rcases List.mem_cons.mp hp with rfl | hold
    · exact h.pageSize id th hth p hpage
    · exact h.freeSize p hold
  · rw [hfields, hpred]
    show t.pool.inUse - 1 + (if t.boot.isSome then 1 else 0) = (t.threads.erase th.id).size
    split at hinUse
    · next hboot => rw [if_pos hboot]; omega
    · next hboot => rw [if_neg hboot]; omega
  · rw [hfields, hpred]
    exact Nat.le_trans (Nat.sub_le _ _) h.bounded
  · rw [hfields]; exact h.fits
  · rw [hfields]; exact h.room

theorem Housed.reapAll {ids : List ThreadId} (h : Housed t) (hdistinct : t.threads.Distinct)
    (hc : ∃ cth, t.threads.find? c = some cth) (hdoomed : Doomed c ids t) :
    ∃ u, Tables.reapAll ids t = .ok u ∧ Housed u := by
  induction ids generalizing t with
  | nil => exact ⟨t, rfl, h⟩
  | cons id rest ih =>
    obtain ⟨hne, hdead⟩ := hdoomed id List.mem_cons_self
    -- the first of them can be freed: it died, and its page is of the pool
    have hone : ∃ u, reapOne id t = .ok u ∧ Housed u := by
      cases hth : t.threads.find? id with
      | none => exact ⟨t, reapOne_eq_ok_iff.mpr (.inl ⟨hth, rfl⟩), h⟩
      | some th =>
        obtain ⟨hdying, hboot⟩ := hdead th hth
        cases hpage : th.page with
        | none => exact absurd (h.paged id th hth hpage) hboot
        | some page =>
          refine ⟨t.removed th, reapOne_eq_ok_iff.mpr (.inr ⟨th, hth, hdying, ?_, rfl⟩),
            h.removed hdistinct hc hth hne hpage⟩
          exact h.pageSize id th hth
    obtain ⟨u, hu, hhoused⟩ := hone
    have hr := reaped_of_reapOne hu
    have hboot : u.boot = t.boot := by rw [hr.rest]
    have hc' : ∃ cth, u.threads.find? c = some cth := by
      obtain ⟨cth, hcth⟩ := hc
      exact ⟨cth, by rw [hr.find?, if_neg (by simpa using Ne.symm hne), hcth]⟩
    -- and the rest may be freed after it
    have hdoomed' : Doomed c rest u := by
      intro i hi
      obtain ⟨hic, hdying⟩ := hdoomed i (List.mem_cons_of_mem id hi)
      refine ⟨hic, fun th hth => ?_⟩
      rw [hr.find?] at hth
      split at hth
      · cases hth
      · rw [hboot]
        exact hdying th hth
    obtain ⟨v, hv, hlast⟩ := ih hhoused (hr.distinct hdistinct) hc' hdoomed'
    exact ⟨v, Fault.bind_eq_ok_iff.mpr ⟨u, hu, hv⟩, hlast⟩

/-- Who waits to be reclaimed may be removed, also while the current thread is marked. -/
theorem Sound.doomed (h : Sound t) (hc : t.current = some c) :
    Doomed c (t.marked way c).reclaim (t.marked way c) := by
  rw [reclaim_marked]
  intro i hi
  have hlink := (h.mem_iff .reclaim nofun i).mp hi
  have hne : i ≠ c := by
    intro heq
    exact h.current_not_mem hc (l := .reclaim) nofun (heq ▸ hi)
  refine ⟨hne, fun th hth => ?_⟩
  rw [find?_marked_ne hne] at hth
  rw [linkOf_of_find? hth, Option.some.injEq] at hlink
  rw [boot_marked]
  exact (h.status_of_link hth).2.2 hlink

/-- The dead can be freed, whatever the current thread is marked for. -/
theorem Housed.reap_marked (h : Housed t) (hsound : Sound t) (hc : t.current = some c) :
    ∃ u, (t.marked way c).reap = .ok u ∧ Housed u := by
  obtain ⟨c', cth, hc', hcth, _⟩ := hsound.current_runs
  rw [hc, Option.some.injEq] at hc'
  subst hc'
  have hlive : ∃ th, (t.marked way c).threads.find? c = some th := by
    obtain ⟨th, hth, _⟩ := find?_marked_self hcth
    exact ⟨th, hth⟩
  have hdistinct : (t.marked way c).threads.Distinct := by
    obtain ⟨f, hf, hthreads⟩ := threads_marked way c t
    rw [hthreads]
    exact hsound.distinct.modify fun th => (hf th).1.id
  have hnobody : Housed { t.marked way c with reclaim := [] } :=
    (h.steady steady_marked).congr (.of_find? fun _ => rfl) rfl rfl rfl rfl
  exact hnobody.reapAll hdistinct hlive (hsound.doomed hc)

theorem Housed.leave (h : Housed t) (hsound : Sound t) (hl : t.leave way = .ok (d, t')) :
    Housed t' := by
  obtain ⟨u, hu, hg⟩ := leave_eq_ok_iff.mp hl
  obtain ⟨c, th, v, hc, _, _, hreap, hd⟩ := giveUp_eq_ok_iff.mp hg
  obtain ⟨_, _, _, _, _, rfl⟩ := dispatch_eq_ok_iff.mp hd
  rw [current_of_mark hu] at hc
  rw [eq_marked_of_mark hu hc] at hreap
  obtain ⟨v', hv', hhoused⟩ := h.reap_marked hsound hc
  rw [hreap, Except.ok.injEq] at hv'
  subst hv'
  have hstopped : Housed (v.modifyThread c fun th => { th with status := way.status }) :=
    hhoused.steady (steady_modifyThread fun _ => ⟨rfl, rfl, rfl, rfl, rfl, rfl⟩)
  exact hstopped.handedOver

end RoundRobin.Tables
