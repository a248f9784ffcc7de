import RoundRobin.Proofs.Tables.Pages

/-!
# The dead wait for one decision

A thread that dies cannot free the stack that it runs on. The decision that it makes puts it aside, and
the next one removes it and gives its page back. So nobody waits for longer than that, and at most one
thread waits at a time.
-/

namespace RoundRobin.Tables

variable {β : Type} {t t' : Tables β} {id c n i : ThreadId} {th : Thread β} {way : Way}
  {d : Dispatch} {pool : PagePool}

/-! ## Who is put aside -/

theorem reclaim_retired : (t.retired c).reclaim =
    if t.statusOf c = some .dying ∧ t.boot ≠ some c then c :: t.reclaim else t.reclaim := by
  unfold retired
  split <;> rfl

theorem reclaim_handedOver : (t.handedOver c n).reclaim =
    if c ≠ n ∧ t.statusOf c = some .dying ∧ t.boot ≠ some c then c :: t.reclaim else t.reclaim := by
  unfold handedOver
  by_cases hcn : c = n
  · rw [if_pos hcn, if_neg fun h => h.1 hcn]
    rfl
  · have hstatus : (t.popped.install n).statusOf c = t.statusOf c := by
      -- installing the next thread is not about this one
      unfold statusOf
      rw [find?_install, find?_popped, Option.map_map]
      refine congrArg (Option.map · _) (funext fun th => ?_)
      simp [hcn]
    rw [if_neg hcn]
    refine reclaim_retired.trans (ite_congr (propext ?_) (fun _ => rfl) fun _ => rfl)
    rw [hstatus]
    exact (and_iff_right hcn).symm

/-- After a decision the thread that exits waits to be reclaimed, and nobody else. The one that booted
does not, nor does one that got the processor back. -/
theorem reclaim_of_leave (h : t.leave way = .ok (d, t')) : t'.reclaim =
    if way = .exit ∧ d.previous ≠ d.next ∧ t.boot ≠ some d.previous then [d.previous] else [] := by
  obtain ⟨_, v, hreap, hd⟩ := steps_of_leave h
  obtain ⟨_, _, ⟨out, hout, _⟩, _, _, rfl⟩ := dispatch_eq_ok_iff.mp hd
  have hr := reaped_of_reap hreap
  have hnobody : v.reclaim = [] := by rw [hr.rest]
  have hboot : v.boot = t.boot := by
    rw [hr.rest]
    exact boot_marked
  have hstatus : (v.modifyThread d.previous fun th => { th with status := way.status }).statusOf
      d.previous = some way.status := by
    obtain ⟨th₀, _, rfl⟩ := ThreadTable.of_find?_modify hout fun _ => rfl
    rw [statusOf, hout, Option.map_some, if_pos rfl]
  have hdying : way.status = .dying ↔ way = .exit := by cases way <;> simp [Way.status]
  refine reclaim_handedOver.trans
    (ite_congr (propext ?_) (fun _ => congrArg _ hnobody) fun _ => hnobody)
  rw [hstatus, Option.some.injEq, hdying, ← hboot]
  exact and_left_comm

/-- A thread that exits does not come next, unless it is the idle thread. -/
theorem Sound.next_ne_of_exit (hsound : Sound t) (hidle : t.idle ≠ some d.previous)
    (h : t.leave .exit = .ok (d, t')) : d.next ≠ d.previous := by
  have hparting := parting_of_leave h
  intro heq
  rcases head_or_idle (heq ▸ hparting.next : t.upNext = some d.previous) with ⟨rest, hids⟩ | ⟨_, hnext⟩
  · refine hsound.current_not_mem hparting.previous (l := .ready) nofun ?_
    rw [members, hids]
    exact List.mem_cons_self
  · exact hidle hnext

theorem length_reclaim_of_leave (h : t.leave way = .ok (d, t')) : t'.reclaim.length ≤ 1 := by
  rw [reclaim_of_leave h]
  split <;> simp

/-- Nobody waits, or one thread does. -/
theorem pending_cases (hone : t.reclaim.length ≤ 1) : t.reclaim = [] ∨ ∃ i, t.reclaim = [i] := by
  cases hreclaim : t.reclaim with
  | nil => exact .inl rfl
  | cons i rest =>
    rw [hreclaim, List.length_cons] at hone
    rw [List.length_eq_zero_iff.mp (by omega : rest.length = 0)]
    exact .inr ⟨i, rfl⟩

/-! ## Who is removed -/

theorem lives_handedOver :
    ((t.handedOver c n).threads.find? i).isSome = (t.threads.find? i).isSome := by
  have hinstall : ((t.popped.install n).threads.find? i).isSome = (t.threads.find? i).isSome := by
    rw [find?_install, Option.isSome_map, find?_popped]
  unfold handedOver
  dsimp only
  split
  · exact hinstall
  · refine Eq.trans ?_ hinstall
    unfold retired
    split
    · have hretired : Steady (t.popped.install n)
          ((t.popped.install n).modifyThread c fun th => { th with link := .reclaim }) :=
        steady_modifyThread fun _ => ⟨rfl, rfl, rfl, rfl, rfl, rfl⟩
      exact hretired.lives i
    · rfl

/-- A decision removes those who wait to be reclaimed, and nobody else. -/
theorem lives_of_leave (h : t.leave way = .ok (d, t')) (i : ThreadId) :
    (t'.threads.find? i).isSome = (decide (i ∉ t.reclaim) && (t.threads.find? i).isSome) := by
  obtain ⟨_, v, hreap, hd⟩ := steps_of_leave h
  obtain ⟨_, _, _, _, _, rfl⟩ := dispatch_eq_ok_iff.mp hd
  have hstop : Steady v (v.modifyThread d.previous fun th => { th with status := way.status }) :=
    steady_modifyThread fun _ => ⟨rfl, rfl, rfl, rfl, rfl, rfl⟩
  rw [lives_handedOver, hstop.lives, (reaped_of_reap hreap).find?, reclaim_marked]
  by_cases hi : i ∈ t.reclaim
  · simp [hi]
  · rw [if_neg hi, decide_eq_true hi, Bool.true_and]
    exact steady_marked.lives i

theorem gone_of_leave (h : t.leave way = .ok (d, t')) (hi : i ∈ t.reclaim) :
    t'.threads.find? i = none := by
  rw [← Option.not_isSome_iff_eq_none, lives_of_leave h]
  simp [hi]

/-! ## Their pages -/

/-- When nobody waits to be reclaimed, a decision leaves the pool alone. -/
theorem pool_of_leave_nil (hnone : t.reclaim = []) (h : t.leave way = .ok (d, t')) :
    t'.pool = t.pool ∧ t'.threads.size = t.threads.size := by
  obtain ⟨_, v, hreap, hd⟩ := steps_of_leave h
  obtain ⟨_, _, _, _, _, rfl⟩ := dispatch_eq_ok_iff.mp hd
  unfold reap at hreap
  rw [reclaim_marked, hnone] at hreap
  cases hreap
  constructor
  · rw [rest_handedOver]
    exact pool_marked
  · rw [size_handedOver]
    exact (ThreadTable.size_modify _).trans steady_marked.size

/-- When one thread waits, a decision gives its page back. -/
theorem pool_of_leave_singleton (hsound : Sound t) (hone : t.reclaim = [i])
    (h : t.leave way = .ok (d, t')) : ∃ th, t.threads.find? i = some th ∧
      t'.pool = t.pool.regain th.page ∧ t'.threads.size + 1 = t.threads.size := by
  obtain ⟨hcurrent, v, hreap, hd⟩ := steps_of_leave h
  obtain ⟨_, _, _, _, _, rfl⟩ := dispatch_eq_ok_iff.mp hd
  have hi : i ∈ t.reclaim := hone ▸ List.mem_singleton.mpr rfl
  have hne : i ≠ d.previous := fun heq =>
    hsound.current_not_mem hcurrent (l := .reclaim) nofun (heq ▸ hi)
  obtain ⟨th, hth, _⟩ := (hsound.mem_iff_link (l := .reclaim) nofun).mp hi
  unfold reap at hreap
  rw [reclaim_marked, hone] at hreap
  obtain ⟨v', hv', hlast⟩ := Fault.bind_eq_ok_iff.mp hreap
  cases hlast
  have hmarked : (t.marked way d.previous).threads.find? i = some th :=
    (find?_marked_ne hne).trans hth
  rcases reapOne_eq_ok_iff.mp hv' with ⟨hnone, _⟩ | ⟨th', hth', _, _, rfl⟩
  · rw [hmarked] at hnone
    cases hnone
  · rw [hmarked, Option.some.injEq] at hth'
    subst hth'
    refine ⟨th, hth, ?_, ?_⟩
    · rw [rest_handedOver]
      exact congrArg (·.regain th.page) pool_marked
    · have hdistinct : (t.marked way d.previous).threads.Distinct := by
        obtain ⟨f, hf, hthreads⟩ := threads_marked way d.previous t
        rw [hthreads]
        exact hsound.distinct.modify fun th => (hf th).1.id
      have hsize := hdistinct.size_erase hmarked
      rw [← ThreadTable.id_of_find? hmarked] at hsize
      have hmarks : (t.marked way d.previous).threads.size = t.threads.size := steady_marked.size
      rw [size_handedOver, ← hmarks, ← hsize]
      exact congrArg (· + 1) (ThreadTable.size_modify _)

/-- No decision changes how many pages there may be. -/
theorem poolCapacity_of_leave (hsound : Sound t) (hone : t.reclaim.length ≤ 1)
    (h : t.leave way = .ok (d, t')) : t'.pool.capacity = t.pool.capacity := by
  rcases pending_cases hone with hnone | ⟨i, hone⟩
  · rw [(pool_of_leave_nil hnone h).1]
  · obtain ⟨th, _, hpool, _⟩ := pool_of_leave_singleton hsound hone h
    rw [hpool]
    cases th.page <;> rfl

/-! ## The dead stay dead -/

/-- Of the threads with ids up to `n`, every one in the second tables was in the first ones and has kept
what stays with a thread. Who was dead is dead. -/
def Persist (n : Nat) (t u : Tables β) : Prop :=
  ∀ i th', i.val ≤ n → u.threads.find? i = some th' →
    ∃ th, t.threads.find? i = some th ∧ th.Same th' ∧ (th.status = .dying → th'.status = .dying)

variable {m : Nat} {ids : List ThreadId} {user asks : Bool} {now timeSlice : Nat}

theorem Persist.refl (m : Nat) (t : Tables β) : Persist m t t :=
  fun _ th _ hth => ⟨th, hth, .refl th, fun h => h⟩

theorem Persist.trans (h : Persist m t u) (h' : Persist m u t') : Persist m t t' := by
  intro i th'' hi hth''
  obtain ⟨th', hth', hsame', hdead'⟩ := h' i th'' hi hth''
  obtain ⟨th, hth, hsame, hdead⟩ := h i th' hi hth'
  exact ⟨th, hth, hsame.trans hsame', fun hdying => hdead' (hdead hdying)⟩

theorem Persist.of_threads (hthreads : u.threads = t.threads) : Persist m t u := by
  intro i th _ hth
  exact ⟨th, hthreads ▸ hth, .refl th, fun h => h⟩

theorem persist_modifyThread {f : Thread β → Thread β}
    (hf : ∀ th, Thread.Same th (f th) ∧ (th.status = .dying → (f th).status = .dying)) :
    Persist m t (t.modifyThread id f) := by
  intro i th' _ hth'
  obtain ⟨th, hth, rfl⟩ := ThreadTable.of_find?_modify hth' fun th => (hf th).1.id
  refine ⟨th, hth, ?_⟩
  split
  · exact hf th
  · exact ⟨.refl th, fun h => h⟩

/-- A thread with a new id is none of those that there were. -/
theorem persist_inserted (hnew : m < th.id.val) : Persist m t (({ t with pool }).insertThread th) := by
  intro i th' hi hth'
  replace hth' := (ThreadTable.find?_insert t.threads th i).symm.trans hth'
  rw [if_neg (fun heq => by rw [heq] at hi; omega)] at hth'
  exact ⟨th', hth', .refl th', fun h => h⟩

theorem Readied.persist (h : Readied ids t t')
    (halive : ∀ i ∈ ids, ∀ th, t.threads.find? i = some th → th.status ≠ .dying) :
    Persist m t t' := by
  intro i th' _ hth'
  rw [h.find?, Option.map_eq_some_iff] at hth'
  obtain ⟨th, hth, rfl⟩ := hth'
  refine ⟨th, hth, ?_⟩
  split
  · next hi => exact ⟨⟨rfl, rfl, rfl, rfl, rfl, rfl⟩, fun hdying => absurd hdying (halive i hi th hth)⟩
  · exact ⟨.refl th, fun h => h⟩

theorem persist_unblock (h : t.unblock id = .ok t') : Persist m t t' := by
  obtain ⟨⟨th, hth, _, hblocked, _⟩, _, _⟩ := unblock_eq_ok_iff.mp h
  refine (readied_of_unblock h).persist fun i hi th' hth' hdying => ?_
  rw [List.mem_singleton.mp hi, hth, Option.some.injEq] at hth'
  rw [hth', hdying] at hblocked
  cases hblocked

/-- A tick wakes sleepers, and they are not dead. -/
theorem Sound.persist_tick (hsound : Sound t) (h : t.tick user now timeSlice = .ok (asks, t')) :
    Persist m t t' := by
  obtain ⟨woken, u, c, stats, hw, _, _, _, _, rfl⟩ := tick_eq_ok_iff.mp h
  rcases wakeDue_eq_ok_iff.mp hw with ⟨_, _, hm⟩ | ⟨_, _, rfl⟩
  · refine (readied_of_makeAllReady hm).persist fun i hi th hth => ?_
    exact hsound.alive_of_mem (.inr rfl) (((List.takeWhile_sublist _).map Sleeper.thread).subset hi) hth
  · exact .refl m _

/-- The dead are not chosen: those that wait to be reclaimed are removed before, and the thread that
booted is neither queued nor idle. -/
theorem Sound.next_alive (hsound : Sound t) (hidle : ∀ b, t.boot = some b → t.idle ≠ some b)
    (h : t.leave way = .ok (d, t')) (hne : d.next ≠ d.previous)
    (hth : t.threads.find? d.next = some th) : th.status ≠ .dying := by
  intro hdying
  have hboot : t.boot = some d.next := by
    refine Classical.not_not.mp fun hboot => ?_
    have hpending : d.next ∈ t.reclaim := (hsound.mem_iff_link (l := .reclaim) nofun).mpr
      ⟨th, hth, hsound.link_of_dying hth hdying hboot⟩
    -- a thread that was removed would not run now
    obtain ⟨c, cth, hc, hcth, _⟩ := (hsound.leave h).current_runs
    rw [(parting_of_leave h).current, Option.some.injEq] at hc
    rw [← hc, gone_of_leave h hpending] at hcth
    cases hcth
  obtain ⟨more, honly, hhead, _⟩ := queue_of_leave h
  rcases head_or_idle hhead with ⟨rest, hqueue⟩ | ⟨_, hnext⟩
  · have hin : d.next ∈ t.ready.ids ++ more := by
      rw [hqueue]
      exact List.mem_cons_self
    rcases List.mem_append.mp hin with hready | hmore
    · exact hsound.alive_of_mem (.inl rfl) hready hth hdying
    · exact hne (honly d.next hmore)
  · exact hidle d.next hboot hnext

theorem Sound.persist_leave (hsound : Sound t) (hidle : ∀ b, t.boot = some b → t.idle ≠ some b)
    (h : t.leave way = .ok (d, t')) : Persist m t t' := by
  have hparting := parting_of_leave h
  intro i th' _ hth'
  obtain ⟨th, hth, hsame⟩ := hparting.survive i th' hth'
  refine ⟨th, hth, hsame, fun hdying => ?_⟩
  by_cases hprevious : i = d.previous
  · -- it runs, so it is not dead yet
    have hrun := (hsound.running_iff hth).mpr (hprevious ▸ hparting.previous)
    rw [hdying] at hrun
    cases hrun
  · by_cases hnext : i = d.next
    · subst hnext
      exact absurd hdying (hsound.next_alive hidle h hprevious hth)
    · rw [hparting.others i hprevious hnext] at hth'
      split at hth'
      · cases hth'
      · rw [hth, Option.some.injEq] at hth'
        exact hth' ▸ hdying

end RoundRobin.Tables
