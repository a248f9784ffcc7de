import RoundRobin.Proofs.Tables.Pages

/-!
# Sections that come to their end

In tables that are sound and housed a critical section stops only where its caller broke a rule. There
is room in the queue for every thread that may join it, nobody is registered twice, the dead can be
freed, and as long as the idle thread lives there is somebody to run.
-/

namespace RoundRobin.Tables

variable {β : Type} {t t' u : Tables β} {id c n i : ThreadId} {th : Thread β} {way : Way}
  {d : Dispatch} {now count timeSlice : Nat} {user asks : Bool}

/-! ## Room -/

/-- The current thread is not in the queue, so the queue is not full. -/
theorem Sound.queue_lt (h : Sound t) (hhoused : Housed t) :
    t.ready.ids.length < t.ready.capacity := by
  obtain ⟨c, cth, hc, hcth, _⟩ := h.current_runs
  -- the queue with the current thread before it names live threads, each once
  have hlive : ∀ i ∈ c :: t.ready.ids, ∃ th, t.threads.find? i = some th := by
    intro i hi
    rcases List.mem_cons.mp hi with rfl | hi
    · exact ⟨cth, hcth⟩
    · obtain ⟨th, hth, _⟩ := (h.mem_iff_link (l := .ready) nofun).mp hi
      exact ⟨th, hth⟩
  have hout : c ∉ t.ready.ids := h.current_not_mem hc (l := .ready) nofun
  have hnodup : (c :: t.ready.ids).Nodup := List.nodup_cons.mpr ⟨hout, h.nodup .ready⟩
  have hlength := ThreadTable.length_le_size hnodup hlive
  have hsize := hhoused.size_le
  rw [List.length_cons] at hlength
  omega

/-! ## Becoming ready -/

/-- A blocked thread that is in no container can be unblocked. -/
theorem unblock_complete (h : Sound t) (hhoused : Housed t) (hth : t.threads.find? id = some th)
    (hst : th.status = .blocked) (hlink : th.link = .unlinked) :
    t.unblock id = .ok (t.readied id) :=
  unblock_eq_ok_iff.mpr ⟨⟨th, hth, hhoused.intact id th hth, hst, hlink⟩,
    fun _ => h.queue_lt hhoused, rfl⟩

/-- Why a thread cannot be unblocked, if it cannot. -/
def unblockRefusal (id : ThreadId) (t : Tables β) : Option Fault :=
  match t.threads.find? id with
  | none => some (.noThread id)
  | some th =>
    if th.status ≠ .blocked then some (.unblockNotBlocked id)
    else if th.link = .sleeping then some (.unblockSleeping id)
    else none

theorem unblock_of_refusal {f : Fault} (hhoused : Housed t) (h : t.unblockRefusal id = some f) :
    t.unblock id = .error f := by
  unfold unblockRefusal at h
  unfold unblock thread
  split at h
  · next hnone =>
    cases h
    rw [hnone]
    rfl
  · next th hth =>
    have hintact : ¬ th.isIntact = false := by rw [hhoused.intact id th hth]; exact nofun
    rw [hth]
    show (if th.isIntact = false then _ else _) = _
    rw [if_neg hintact]
    split at h
    · next hst =>
      cases h
      exact if_pos hst
    · next hst =>
      split at h
      · next hlink =>
        cases h
        rw [if_neg hst, if_pos (by rw [hlink]; exact nofun)]
        rfl
      · cases h

theorem unblock_of_no_refusal (h : Sound t) (hhoused : Housed t) (hno : t.unblockRefusal id = none) :
    t.unblock id = .ok (t.readied id) := by
  unfold unblockRefusal at hno
  split at hno
  · cases hno
  · next th hth =>
    split at hno
    · cases hno
    · next hst =>
      split at hno
      · cases hno
      · next hlink =>
        rw [ne_eq, Classical.not_not] at hst
        have hplaced := h.placed id th hth
        rw [Placed, hst] at hplaced
        have hunlinked : th.link = .unlinked := by
          rcases hplaced with hunlinked | ⟨hsleeping, _⟩
          · exact hunlinked
          · exact absurd hsleeping hlink
        exact unblock_complete h hhoused hth hst hunlinked

/-- A front of the registry can be readied. -/
theorem Sound.wakeFront_complete {front rest : List Sleeper} {nextWake : Nat} (h : Sound t)
    (hhoused : Housed t) (hs : t.sleepers.sleepers = front ++ rest) :
    ∃ u, makeAllReady (front.map (·.thread)) { t with sleepers := ⟨rest, nextWake⟩ } = .ok u := by
  induction front generalizing t with
  | nil => exact ⟨_, rfl⟩
  | cons s front ih =>
    have hfirst : Sound (Tables.readied s.thread { t with sleepers := ⟨front ++ rest, nextWake⟩ }) :=
      h.wakeFirst hs
    have hlink : t.linkOf s.thread = some .sleeping := by
      rw [← h.mem_iff .sleeping nofun, members, hs]
      exact List.mem_cons_self
    obtain ⟨th, hth, hsleeping⟩ := linkOf_eq_some_iff.mp hlink
    have hblocked := ((h.status_of_link hth).2.1 hsleeping).1
    have hready : ∀ r : SleepRegistry, makeReady { t with sleepers := r } s.thread
        = .ok (Tables.readied s.thread { t with sleepers := r }) := fun r =>
      makeReady_eq_ok_iff.mpr ⟨⟨th, hth, hblocked⟩, fun _ => h.queue_lt hhoused, rfl⟩
    -- the rest of the front is readied in tables that are sound and housed again
    have hsteady := (steady_withSleepers ⟨front ++ rest, nextWake⟩).trans
      (readied_of_makeReady (hready ⟨front ++ rest, nextWake⟩)).steady
    have hnext := hhoused.steady hsteady
    obtain ⟨u, hu⟩ := ih hfirst hnext (by rw [readied_withSleepers])
    refine ⟨u, Fault.bind_eq_ok_iff.mpr ⟨_, hready _, ?_⟩⟩
    rw [readied_withSleepers] at hu ⊢
    exact hu

/-- The sleepers whose tick has come can be readied. -/
theorem Sound.wakeDue_complete (h : Sound t) (hhoused : Housed t) (now : Nat) :
    ∃ count u, t.wakeDue now = .ok (count, u) := by
  by_cases hdue : t.sleepers.due now = true
  · obtain ⟨u, hu⟩ := h.wakeFront_complete hhoused
      (List.takeWhile_append_dropWhile (p := SleepRegistry.matured now)).symm
    exact ⟨_, u, wakeDue_eq_ok_iff.mpr (.inl ⟨hdue, rfl, hu⟩)⟩
  · exact ⟨0, t, wakeDue_eq_ok_iff.mpr (.inr ⟨by simpa using hdue, rfl, rfl⟩)⟩

/-! ## Ticks -/

/-- A tick can be charged while neither the statistics nor the slice is at its last word. -/
theorem charge_complete {kind : TickKind}
    (hstats : t.stats.idle + t.stats.kernel + t.stats.user < Word.top)
    (hslice : t.sliceTicks < Word.top32) :
    ∃ expired u, t.charge kind timeSlice = .ok (expired, u) := by
  have hcharge : ∃ stats, t.stats.charge kind = .ok stats := by
    cases kind with
    | idle =>
      exact ⟨_, Fault.bind_eq_ok_iff.mpr ⟨_, checkedAdd_eq_ok (by omega), rfl⟩⟩
    | kernel =>
      exact ⟨_, Fault.bind_eq_ok_iff.mpr ⟨_, checkedAdd_eq_ok (by omega), rfl⟩⟩
    | user =>
      exact ⟨_, Fault.bind_eq_ok_iff.mpr ⟨_, checkedAdd_eq_ok (by omega), rfl⟩⟩
  obtain ⟨stats, hstats'⟩ := hcharge
  exact ⟨_, _, charge_eq_ok_iff.mpr ⟨stats, hstats', Nat.ne_of_lt hslice, rfl, rfl⟩⟩

/-! ## Decisions -/

/-- Whether the idle thread is the current one. -/
def idleRuns (t : Tables β) : Bool := t.current.any t.isIdle

theorem idleRuns_eq (hc : t.current = some c) : t.idleRuns = t.isIdle c := by
  rw [idleRuns, hc, Option.any_some]

/-- A tick is charged to the kind of the thread that runs. -/
theorem stats_of_tick {user asks : Bool} {now timeSlice : Nat}
    (h : t.tick user now timeSlice = .ok (asks, t')) :
    t'.stats = t.stats.plus (kindOf t.idleRuns user) := by
  obtain ⟨woken, u, c, stats, hw, hc, hcharge, _, _, rfl⟩ := tick_eq_ok_iff.mp h
  have hsame : u.stats = t.stats ∧ u.idle = t.idle ∧ u.current = t.current := by
    rw [rest_of_wakeDue hw]
    exact ⟨rfl, rfl, rfl⟩
  have hkind : u.isIdle c = t.idleRuns := by
    rw [idleRuns_eq (hsame.2.2 ▸ hc), isIdle, isIdle, hsame.2.1]
  rw [hsame.1, hkind] at hcharge
  exact TickStats.eq_plus_of_charge hcharge

/-- The idle thread, if there is one, lives. -/
def Attended (t : Tables β) : Prop :=
  ∀ i, t.idle = some i → ∃ th, t.threads.find? i = some th ∧ th.status ≠ .dying

/-- The current thread can be marked for any way to leave; the idle thread may not sleep. -/
theorem Sound.mark_complete (h : Sound t) (hhoused : Housed t) (hc : t.current = some c)
    (hway : ∀ w, way = .sleep w → t.idleRuns = false) : t.mark way = .ok (t.marked way c) := by
  obtain ⟨c', cth, hc', hcth, _⟩ := h.current_runs
  rw [hc, Option.some.injEq] at hc'
  subst hc'
  cases way with
  | block => rfl
  | exit => rfl
  | yield =>
    refine requeueCurrent_eq_ok_iff.mpr ⟨c, hc, ?_⟩
    by_cases hidle : t.idle = some c
    · exact .inl ⟨hidle, if_pos hidle⟩
    · exact .inr ⟨hidle, ⟨cth, hcth⟩, h.queue_lt hhoused, if_neg hidle⟩
  | sleep w =>
    have hidle : t.idle ≠ some c := by
      intro hidle
      have hruns := hway w rfl
      rw [idleRuns_eq hc, isIdle_iff.mpr hidle] at hruns
      cases hruns
    refine fallAsleep_eq_ok_iff.mpr ⟨c, hc, hidle, ⟨cth, hcth⟩, ?_, rfl⟩
    rw [Bool.eq_false_iff]
    intro hcontains
    exact h.current_not_mem hc (l := .sleeping) nofun (SleepRegistry.contains_iff.mp hcontains)

/-- Freeing the dead leaves all others there. -/
theorem Sound.find?_reaped (h : Sound t) (hreap : (t.marked way c).reap = .ok u)
    (hth : t.threads.find? i = some th) (halive : th.status ≠ .dying) :
    ∃ th', u.threads.find? i = some th' := by
  have hout : i ∉ (t.marked way c).reclaim := by
    rw [reclaim_marked]
    exact h.not_mem_reclaim hth halive
  rw [(reaped_of_reap hreap).find?, if_neg hout]
  by_cases hi : i = c
  · subst hi
    obtain ⟨th', hth', _⟩ := find?_marked_self hth
    exact ⟨th', hth'⟩
  · exact ⟨th, (find?_marked_ne hi).trans hth⟩

/-- A decision can be made if somebody is in the queue or the idle thread lives. -/
theorem Stopped.dispatch_complete (h : Stopped c t) (hhoused : Housed t)
    (hc : ∃ th, t.threads.find? c = some th)
    (hsome : t.ready.ids ≠ [] ∨ ∃ i th, t.idle = some i ∧ t.threads.find? i = some th)
    (hroom : t.upNext ≠ some c → t.switches < Word.top) : ∃ d t', t.dispatch = .ok (d, t') := by
  have hnext : ∃ n th, t.upNext = some n ∧ t.threads.find? n = some th := by
    unfold upNext
    cases hids : t.ready.ids with
    | nil => exact hsome.resolve_left fun hne => hne hids
    | cons n rest =>
      have hmem : n ∈ t.members .ready := by
        rw [members, hids]
        exact List.mem_cons_self
      obtain ⟨th, hth, _⟩ := linkOf_eq_some_iff.mp ((h.mem_iff .ready (by decide) n).mp hmem)
      exact ⟨n, th, rfl, hth⟩
  obtain ⟨n, inc, hn, hinc⟩ := hnext
  obtain ⟨out, hout⟩ := hc
  exact ⟨⟨c, n⟩, _, dispatch_eq_ok_iff.mpr ⟨h.current, hn, ⟨out, hout, (h.placed c out hout).2⟩,
    ⟨inc, hinc, hhoused.intact n inc hinc⟩,
    fun hne => hroom (by rw [hn]; exact fun e => hne (Option.some.inj e).symm), rfl⟩⟩

/-- Once it is marked the current thread can leave, if somebody is in the queue then or the idle thread
lives. A switch to another thread has to be counted. -/
theorem Sound.leave_of_mark (h : Sound t) (hhoused : Housed t) (hc : t.current = some c)
    (hmark : t.mark way = .ok (t.marked way c))
    (hsome : (t.marked way c).ready.ids ≠ [] ∨
      ∃ i th, t.idle = some i ∧ t.threads.find? i = some th ∧ th.status ≠ .dying)
    (hroom : (t.marked way c).upNext ≠ some c → t.switches < Word.top) :
    ∃ d t', t.leave way = .ok (d, t') := by
  obtain ⟨c', cth, hc', hcth, hrun⟩ := h.current_runs
  rw [hc, Option.some.injEq] at hc'
  subst hc'
  obtain ⟨c', hc', hmarked⟩ := h.marked hmark
  rw [hc, Option.some.injEq] at hc'
  subst hc'
  obtain ⟨mth, hmth, hmst⟩ : ∃ th, (t.marked way c).threads.find? c = some th ∧
      th.status = cth.status := find?_marked_self hcth
  obtain ⟨v, hreap, hvhoused⟩ : ∃ v, (t.marked way c).reap = .ok v ∧ Housed v :=
    hhoused.reap_marked h hc
  have hstopped := hmarked.stopped (by cases way <;> exact nofun) hreap
  have hfields : v.idle = t.idle ∧ v.switches = t.switches ∧ v.ready = (t.marked way c).ready := by
    rw [(reaped_of_reap hreap).rest]
    exact ⟨idle_marked, switches_marked, rfl⟩
  -- who was alive is there still when the current thread has stopped
  have hstay : ∀ i th, t.threads.find? i = some th → th.status ≠ .dying → ∃ th',
      (v.modifyThread c fun th => { th with status := way.status }).threads.find? i = some th' := by
    intro i th hth halive
    obtain ⟨th', hth'⟩ := h.find?_reaped hreap hth halive
    exact ⟨_, (find?_modifyThread (f := fun th => { th with status := way.status })
      (fun _ => rfl) i).trans (by rw [hth', Option.map_some])⟩
  have hsome' : v.ready.ids ≠ [] ∨ ∃ i th, v.idle = some i ∧
      (v.modifyThread c fun th => { th with status := way.status }).threads.find? i = some th := by
    rw [hfields.1, hfields.2.2]
    refine hsome.imp_right fun ⟨i, ith, hi, hith, halive⟩ => ?_
    obtain ⟨th, hth⟩ := hstay i ith hith halive
    exact ⟨i, th, hi, hth⟩
  have hroom' : v.upNext ≠ some c → v.switches < Word.top := by
    rw [upNext, hfields.1, hfields.2.1, hfields.2.2, ← idle_marked]
    exact hroom
  have hlast : Housed (v.modifyThread c fun th => { th with status := way.status }) :=
    hvhoused.steady (steady_modifyThread fun _ => ⟨rfl, rfl, rfl, rfl, rfl, rfl⟩)
  obtain ⟨d, t', hd⟩ := hstopped.dispatch_complete hlast
    (hstay c cth hcth (by rw [hrun]; decide)) hsome' hroom'
  exact ⟨d, t', leave_eq_ok_iff.mpr ⟨_, hmark, giveUp_eq_ok_iff.mpr
    ⟨c, mth, v, hmarked.current, hmth, hmst.trans hrun, hreap, hd⟩⟩⟩

/-- The current thread can leave in every way; only the idle thread may not sleep. -/
theorem Sound.leave_complete (h : Sound t) (hhoused : Housed t) (hattended : Attended t)
    (hsome : t.idle.isSome = true) (hswitches : t.switches < Word.top)
    (hway : ∀ w, way = .sleep w → t.idleRuns = false) : ∃ d t', t.leave way = .ok (d, t') := by
  obtain ⟨c, _, hc, _⟩ := h.current_runs
  obtain ⟨i, hi⟩ := Option.isSome_iff_exists.mp hsome
  obtain ⟨ith, hith, halive⟩ := hattended i hi
  exact h.leave_of_mark hhoused hc (h.mark_complete hhoused hc hway) (.inr ⟨i, ith, hi, hith, halive⟩)
    fun _ => hswitches

/-- It can yield even if there is no idle thread: then it may come next itself. -/
theorem Sound.yield_complete (h : Sound t) (hhoused : Housed t) (hc : t.current = some c)
    (hroom : (t.marked .yield c).upNext ≠ some c → t.switches < Word.top) :
    ∃ d t', t.leave .yield = .ok (d, t') := by
  obtain ⟨c', cth, hc', hcth, hrun⟩ := h.current_runs
  rw [hc, Option.some.injEq] at hc'
  subst hc'
  refine h.leave_of_mark hhoused hc (h.mark_complete hhoused hc nofun) ?_ hroom
  by_cases hidle : t.idle = some c
  · exact .inr ⟨c, cth, hidle, hcth, by rw [hrun]; exact nofun⟩
  · refine .inl ?_
    rw [show t.marked .yield c = t.requeued c from if_neg hidle]
    exact List.append_ne_nil_of_right_ne_nil _ (List.cons_ne_nil c [])

/-! ## The idle thread lives on -/

/-- Who dies is the thread that exits, so the idle thread lives as long as another one exits. -/
theorem Attended.leave (h : Attended t) (hsound : Sound t) (hl : t.leave way = .ok (d, t'))
    (hexit : way = .exit → t.idleRuns = false) : Attended t' := by
  have hparting := parting_of_leave hl
  intro i hi
  rw [hparting.idle] at hi
  obtain ⟨th, hth, halive⟩ := h i hi
  by_cases hnext : i = d.next
  · -- who was chosen runs
    obtain ⟨c, cth, hc, hcth, hrun⟩ := (hsound.leave hl).current_runs
    rw [hparting.current, Option.some.injEq] at hc
    refine ⟨cth, by rw [hnext, hc]; exact hcth, ?_⟩
    rw [hrun]
    exact nofun
  · by_cases hprevious : i = d.previous
    · -- who left has the status of its way, and the idle thread did not exit
      have hne : d.previous ≠ d.next := fun e => hnext (hprevious.trans e)
      obtain ⟨out, hout, hst⟩ := hparting.outgoing hne
      refine ⟨out, hprevious ▸ hout, fun hdying => ?_⟩
      rw [hst] at hdying
      have hway : way = .exit := by cases way <;> first | rfl | cases hdying
      have hruns := hexit hway
      rw [idleRuns_eq hparting.previous, isIdle_iff.mpr (hprevious ▸ hi)] at hruns
      cases hruns
    · refine ⟨th, ?_, halive⟩
      rw [hparting.others i hprevious hnext, if_neg (hsound.not_mem_reclaim hth halive)]
      exact hth

theorem Readied.attended {ids : List ThreadId} (hr : Readied ids t t') (h : Attended t) :
    Attended t' := by
  intro i hi
  have hidle : t'.idle = t.idle := by rw [hr.rest]
  obtain ⟨th, hth, halive⟩ := h i (hidle.symm.trans hi)
  refine ⟨_, by rw [hr.find?, hth, Option.map_some], ?_⟩
  split
  · exact nofun
  · exact halive

theorem Attended.unblock (h : Attended t) (hu : t.unblock id = .ok t') : Attended t' :=
  (readied_of_unblock hu).attended h

theorem Attended.tick (h : Attended t) (ht : t.tick user now timeSlice = .ok (asks, t')) :
    Attended t' := by
  obtain ⟨woken, u, c, stats, hw, _, _, _, _, rfl⟩ := tick_eq_ok_iff.mp ht
  rcases wakeDue_eq_ok_iff.mp hw with ⟨_, _, hm⟩ | ⟨_, _, rfl⟩
  · exact (readied_of_makeAllReady hm).attended h
  · exact h

theorem Attended.inserted {pool : PagePool} (h : Attended t) (hst : th.status = .blocked) :
    Attended ({ t with pool }.insertThread th) := by
  intro i hi
  obtain ⟨u, hu, halive⟩ := h i hi
  have hfind := ThreadTable.find?_insert t.threads th i
  by_cases hid : i = th.id
  · rw [if_pos hid] at hfind
    refine ⟨th, hfind, ?_⟩
    rw [hst]
    exact nofun
  · rw [if_neg hid] at hfind
    exact ⟨u, hfind.trans hu, halive⟩

/-! ## Tables that can be read -/

/-- Sound tables with their threads housed, and statistics that can be added up. -/
structure Readable (t : Tables β) : Prop where
  sound : t.Sound
  housed : t.Housed
  stats : t.stats.idle + t.stats.kernel + t.stats.user ≤ Word.top

theorem Readable.leave (h : Readable t) (hl : t.leave way = .ok (d, t')) : Readable t' := by
  refine ⟨h.sound.leave hl, h.housed.leave h.sound hl, ?_⟩
  rw [(parting_of_leave hl).stats]
  exact h.stats

end RoundRobin.Tables
