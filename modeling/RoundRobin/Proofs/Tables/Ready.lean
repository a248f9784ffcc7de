import RoundRobin.Proofs.Tables.Sound

/-!
# Becoming ready

What `makeReady` does to one thread and to the sleepers whose tick has come, and that the tables stay
sound. A thread is readied from one of two places: it waits unlinked until another thread unblocks
it, or it sleeps until a tick and leaves the registry with it.
-/

namespace RoundRobin.Tables

variable {β : Type} {t t' u : Tables β} {id : ThreadId} {th : Thread β}

/-! ## One thread -/

/-- A thread made ready, and in the queue unless it is the idle thread. -/
def readied (id : ThreadId) (t : Tables β) : Tables β :=
  if t.idle = some id then
    t.modifyThread id fun th => { th with status := .ready, link := .unlinked }
  else
    { t.modifyThread id fun th => { th with status := .ready, link := .ready } with
      ready := { t.ready with ids := t.ready.ids ++ [id] } }

theorem makeReady_eq_ok_iff :
    t.makeReady id = .ok t' ↔ (∃ th, t.threads.find? id = some th ∧ th.status = .blocked) ∧
      (t.idle ≠ some id → t.ready.ids.length < t.ready.capacity) ∧ t' = t.readied id := by
  unfold makeReady readied
  rw [Fault.bind_eq_ok_iff]
  simp only [thread_eq_ok_iff]
  rw [← exists_and_right]
  refine exists_congr fun th => ?_
  rw [and_assoc]
  refine and_congr_right fun _ => ?_
  by_cases hst : th.status = .blocked
  · rw [if_neg (by simp [hst])]
    by_cases hidle : t.idle = some id
    · rw [if_pos (isIdle_iff.mpr hidle), if_pos hidle, Fault.pure_eq_ok_iff]
      simp [hst, hidle]
    · rw [if_neg (fun h => hidle (isIdle_iff.mp h)), if_neg hidle]
      simp only [pushReady, Fault.bind_eq_ok_iff, Fault.pure_eq_ok_iff,
        ReadyQueue.push_eq_ok_iff]
      constructor
      · rintro ⟨q, ⟨hroom, rfl⟩, rfl⟩
        exact ⟨hst, fun _ => hroom, rfl⟩
      · rintro ⟨_, hroom, rfl⟩
        exact ⟨_, ⟨hroom hidle, rfl⟩, rfl⟩
  · rw [if_pos hst]
    simp [hst, throw, throwThe, MonadExceptOf.throw]

theorem unblock_eq_ok_iff :
    t.unblock id = .ok t' ↔
      (∃ th, t.threads.find? id = some th ∧ th.isIntact = true ∧ th.status = .blocked ∧
        th.link = .unlinked) ∧
      (t.idle ≠ some id → t.ready.ids.length < t.ready.capacity) ∧ t' = t.readied id := by
  unfold unblock
  rw [Fault.bind_eq_ok_iff]
  simp only [thread_eq_ok_iff]
  rw [← exists_and_right]
  refine exists_congr fun th => ?_
  rw [and_assoc]
  refine and_congr_right fun hth => ?_
  by_cases hintact : th.isIntact = false
  · rw [if_pos hintact]
    simp [hintact, throw, throwThe, MonadExceptOf.throw]
  · rw [if_neg hintact]
    by_cases hst : th.status = .blocked
    · rw [if_neg (by simp [hst])]
      by_cases hlink : th.link = .unlinked
      · rw [if_neg (by simp [hlink]), makeReady_eq_ok_iff]
        simp only [hth, Option.some.injEq, exists_eq_left', hst, hlink, true_and]
        simp [hintact]
      · rw [if_pos hlink]
        simp [hlink, throw, throwThe, MonadExceptOf.throw]
    · rw [if_pos hst]
      simp [hst, throw, throwThe, MonadExceptOf.throw]

/-- A thread that waits unlinked may be made ready. -/
theorem Sound.readied (h : Sound t) (hth : t.threads.find? id = some th)
    (hst : th.status = .blocked) (hlink : th.link = .unlinked) : Sound (t.readied id) := by
  have hunlinked : t.linkOf id = some .unlinked := by rw [linkOf_of_find? hth, hlink]
  have hthid := ThreadTable.id_of_find? hth
  unfold Tables.readied
  split
  · next hidle =>
    -- the idle thread is ready and in no container
    refine h.move (f := fun th => { th with status := .ready, link := .unlinked }) ?_ rfl
      (fun _ => rfl) rfl rfl rfl hth (by rw [hst]; decide) ?_
    · refine h.toFiled.unfile (f := fun th => { th with status := .ready, link := .unlinked })
        rfl (fun _ => rfl) (fun _ => rfl) (fun _ => rfl) hunlinked (fun k hk => ?_) fun _ hs => hs
      rw [if_neg hk]
      cases k <;> exact .refl _
    · simp [Placed, modifyThread, hidle, hthid]
  · next hidle =>
    refine h.move (f := fun th => { th with status := .ready, link := .ready }) ?_ rfl
      (fun _ => rfl) rfl rfl rfl hth (by rw [hst]; decide) ?_
    · refine h.toFiled.file (f := fun th => { th with status := .ready, link := .ready })
        rfl (fun _ => rfl) (fun _ => rfl) (by decide) hunlinked (fun k => ?_)
        (h.toFiled.wakeTick_modify rfl (fun _ => rfl) (fun _ => rfl) fun _ hs => hs)
      cases k with
      | ready => exact List.perm_append_singleton id t.ready.ids
      | unlinked => exact .refl _
      | sleeping => exact .refl _
      | reclaim => exact .refl _
    · simp [Placed, modifyThread, hidle, hthid]

theorem Sound.unblock (h : Sound t) (hu : t.unblock id = .ok t') : Sound t' := by
  obtain ⟨⟨th, hth, _, hst, hlink⟩, _, rfl⟩ := unblock_eq_ok_iff.mp hu
  exact h.readied hth hst hlink

/-! ## Sleepers -/

/-- What readying threads leaves alone, and what it does to those readied. -/
structure Readied (ids : List ThreadId) (t t' : Tables β) : Prop where
  rest : t' = { t with threads := t'.threads, ready := t'.ready }
  capacity : t'.ready.capacity = t.ready.capacity
  queue : t'.ready.ids = t.ready.ids ++ ids.filter fun i => t.idle ≠ some i
  find? : ∀ i, t'.threads.find? i = (t.threads.find? i).map fun th =>
    if i ∈ ids then
      { th with status := .ready, link := if t.idle = some i then .unlinked else .ready }
    else th
  size : t'.threads.size = t.threads.size

/-- Everybody else is in the status in which he was. -/
theorem Readied.statusOf {ids : List ThreadId} {i : ThreadId} (h : Readied ids t t') (hi : i ∉ ids) :
    t'.statusOf i = t.statusOf i := by
  unfold Tables.statusOf
  rw [h.find?]
  simp only [if_neg hi, Option.map_id']

theorem readied_of_makeReady (h : t.makeReady id = .ok t') : Readied [id] t t' := by
  obtain ⟨_, _, rfl⟩ := makeReady_eq_ok_iff.mp h
  unfold Tables.readied
  split
  · next hidle =>
    refine ⟨rfl, rfl, by simp [modifyThread, hidle], fun i => ?_, ThreadTable.size_modify _⟩
    refine (find?_modifyThread (f := fun th => { th with status := .ready, link := .unlinked })
      (fun _ => rfl) i).trans ?_
    congr 1
    funext th
    by_cases hi : i = id <;> simp [hi, hidle]
  · next hidle =>
    refine ⟨rfl, rfl, by simp [hidle], fun i => ?_, ThreadTable.size_modify _⟩
    refine (find?_modifyThread (f := fun th => { th with status := .ready, link := .ready })
      (fun _ => rfl) i).trans ?_
    congr 1
    funext th
    by_cases hi : i = id <;> simp [hi, hidle]

theorem readied_of_unblock (h : t.unblock id = .ok t') : Readied [id] t t' := by
  obtain ⟨⟨th, hth, _, hst, _⟩, hroom, rfl⟩ := unblock_eq_ok_iff.mp h
  exact readied_of_makeReady (makeReady_eq_ok_iff.mpr ⟨⟨th, hth, hst⟩, hroom, rfl⟩)

theorem readied_of_makeAllReady {ids : List ThreadId} (h : makeAllReady ids t = .ok t') :
    Readied ids t t' := by
  induction ids generalizing t with
  -- one after the other, each from the tables that those before it left
  | nil => cases h; exact ⟨rfl, rfl, by simp, fun i => by simp, rfl⟩
  | cons id rest ih =>
    obtain ⟨u, hu, h⟩ := Fault.bind_eq_ok_iff.mp h
    have hone := readied_of_makeReady hu
    have hrest := ih h
    have hidle : u.idle = t.idle := by rw [hone.rest]
    constructor
    · rw [hrest.rest, hone.rest]
    · rw [hrest.capacity, hone.capacity]
    · rw [hrest.queue, hone.queue, hidle, List.append_assoc, ← List.filter_append]
      rfl
    · intro i
      rw [hrest.find?, hone.find?, hidle, Option.map_map]
      congr 1
      funext th
      by_cases hi : i = id <;> by_cases hr : i ∈ rest <;> simp_all
    · rw [hrest.size, hone.size]

theorem readied_withSleepers (r : SleepRegistry) :
    readied id { t with sleepers := r } = { t.readied id with sleepers := r } := by
  unfold readied
  simp only
  split <;> rfl

/-- Readying a thread overwrites its link. -/
theorem readied_unlink :
    (t.modifyThread id fun th => { th with link := .unlinked }).readied id = t.readied id := by
  have hmodify : ∀ l : Link,
      (t.threads.modify id fun th => { th with link := .unlinked }).modify id
        (fun th => { th with status := .ready, link := l })
        = t.threads.modify id fun th => { th with status := .ready, link := l } :=
    fun l => ThreadTable.modify_modify (g := fun th => { th with link := .unlinked }) fun _ => rfl
  unfold readied modifyThread
  simp only [hmodify]

/-- The first sleeper may be made ready as it leaves the registry. -/
theorem Sound.wakeFirst {s : Sleeper} {rest : List Sleeper} {nextWake : Nat} (h : Sound t)
    (hs : t.sleepers.sleepers = s :: rest) :
    Sound (Tables.readied s.thread { t with sleepers := ⟨rest, nextWake⟩ }) := by
  have hlink : t.linkOf s.thread = some .sleeping := by
    rw [← h.mem_iff .sleeping (by decide), members, hs]
    exact List.mem_cons_self
  obtain ⟨th, hth, hsleeping⟩ := linkOf_eq_some_iff.mp hlink
  have hblocked : th.status = .blocked := by
    have hplaced := h.placed s.thread th hth
    unfold Placed at hplaced
    cases hst : th.status with
    | blocked => rfl
    | running => simp [hst, hsleeping] at hplaced
    | ready => simp only [hst, hsleeping] at hplaced; split at hplaced <;> cases hplaced
    | dying => simp only [hst, hsleeping] at hplaced; split at hplaced <;> cases hplaced
  -- taken out of the registry, the thread waits unlinked
  have hout : Sound (({ t with sleepers := ⟨rest, nextWake⟩ } : Tables β).modifyThread s.thread
      fun th => { th with link := .unlinked }) := by
    refine h.move (f := fun th => { th with link := .unlinked }) ?_ rfl (fun _ => rfl)
      rfl rfl rfl hth (by rw [hblocked]; decide) ?_
    · refine h.toFiled.unfile (f := fun th => { th with link := .unlinked })
        rfl (fun _ => rfl) (fun _ => rfl) (fun _ => rfl) hlink (fun k _ => ?_) fun a ha => ?_
      · cases k with
        | sleeping =>
          show (t.sleepers.sleepers.map (·.thread)).Perm (s.thread :: rest.map (·.thread))
          rw [hs, List.map_cons]
        | unlinked => exact .refl _
        | ready => exact .refl _
        | reclaim => exact .refl _
      · rw [hs]
        exact List.mem_cons_of_mem s ha
    · simp [Placed, hblocked]
  rw [← readied_unlink]
  have hfind : (({ t with sleepers := ⟨rest, nextWake⟩ } : Tables β).modifyThread s.thread
      fun th => { th with link := .unlinked }).threads.find? s.thread
        = some { th with link := .unlinked } := by
    refine (ThreadTable.find?_modify _ _ _ (fun th => { th with link := .unlinked })
      fun _ => rfl).trans ?_
    rw [hth]
    simp
  exact hout.readied hfind hblocked rfl

/-- So may a whole front of the registry, in order. -/
theorem Sound.wakeFront {front rest : List Sleeper} {nextWake : Nat} (h : Sound t)
    (hs : t.sleepers.sleepers = front ++ rest)
    (hm : makeAllReady (front.map (·.thread)) { t with sleepers := ⟨rest, nextWake⟩ } = .ok t') :
    Sound t' := by
  induction front generalizing t with
  | nil =>
    cases hm
    exact h.congr rfl rfl hs.symm rfl rfl rfl rfl
  | cons s front ih =>
    obtain ⟨u, hu, hm⟩ := Fault.bind_eq_ok_iff.mp hm
    -- the registry loses its whole front at once, and here one sleeper after the other
    obtain ⟨_, _, rfl⟩ := makeReady_eq_ok_iff.mp hu
    have hfirst : Sound (Tables.readied s.thread { t with sleepers := ⟨front ++ rest, nextWake⟩ }) :=
      h.wakeFirst hs
    rw [readied_withSleepers] at hfirst hm
    exact ih hfirst rfl hm

theorem wakeDue_eq_ok_iff {now count : Nat} :
    t.wakeDue now = .ok (count, t') ↔
      (t.sleepers.due now = true ∧ count = (t.sleepers.wake now).1.length ∧
        makeAllReady (t.sleepers.wake now).1 { t with sleepers := (t.sleepers.wake now).2 }
          = .ok t') ∨
      (t.sleepers.due now = false ∧ count = 0 ∧ t' = t) := by
  unfold wakeDue
  by_cases hdue : t.sleepers.due now = true
  · rw [if_pos hdue]
    simp only [Fault.bind_eq_ok_iff, Fault.pure_eq_ok_iff, Prod.mk.injEq]
    constructor
    · rintro ⟨u, hm, rfl, rfl⟩
      exact .inl ⟨hdue, rfl, hm⟩
    · rintro (⟨_, rfl, hm⟩ | ⟨hnot, _, _⟩)
      · exact ⟨t', hm, rfl, rfl⟩
      · exact absurd hdue (by rw [hnot]; exact nofun)
  · rw [if_neg hdue, Fault.pure_eq_ok_iff]
    simp [hdue]

theorem Sound.wakeDue {now count : Nat} (h : Sound t) (hw : t.wakeDue now = .ok (count, t')) :
    Sound t' := by
  rcases wakeDue_eq_ok_iff.mp hw with ⟨_, _, hm⟩ | ⟨_, _, rfl⟩
  · exact h.wakeFront (List.takeWhile_append_dropWhile).symm hm
  · exact h

end RoundRobin.Tables
