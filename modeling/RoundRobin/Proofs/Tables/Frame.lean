import RoundRobin.Proofs.Tables.Tick

/-!
# What the critical sections leave alone

A frame for each section that changes several threads at once. `Survive` is what all of them have in
common: they make no thread, and those that they leave keep their name, their page and their magic
number. `Parting` spells out a decision field by field.
-/

namespace RoundRobin

/-- One thread at two times. Its name, its page, its magic number and what it runs do not change. -/
structure Thread.Same {β : Type} (th th' : Thread β) : Prop where
  id : th'.id = th.id
  name : th'.name = th.name
  magic : th'.magic = th.magic
  context : th'.context = th.context
  page : th'.page = th.page
  entry : th'.entry = th.entry

namespace Thread

variable {β : Type} {th th' th'' : Thread β}

theorem Same.refl (th : Thread β) : Same th th := ⟨rfl, rfl, rfl, rfl, rfl, rfl⟩

theorem Same.trans (h : Same th th') (h' : Same th' th'') : Same th th'' :=
  ⟨h'.id.trans h.id, h'.name.trans h.name, h'.magic.trans h.magic, h'.context.trans h.context,
    h'.page.trans h.page, h'.entry.trans h.entry⟩

theorem Same.isIntact (h : Same th th') : th'.isIntact = th.isIntact := by
  unfold Thread.isIntact
  rw [h.magic, h.page]

end Thread

namespace Tables

variable {β : Type} {t t' u : Tables β} {id c n i : ThreadId} {th : Thread β} {way : Way}
  {d : Dispatch}

/-! ## Survivors -/

/-- Every thread of the second tables was in the first ones. -/
def Survive (t t' : Tables β) : Prop :=
  ∀ i th', t'.threads.find? i = some th' → ∃ th, t.threads.find? i = some th ∧ th.Same th'

theorem Survive.refl (t : Tables β) : Survive t t := fun _ th h => ⟨th, h, .refl th⟩

theorem Survive.trans (h : Survive t u) (h' : Survive u t') : Survive t t' := by
  intro i th'' hth''
  obtain ⟨th', hth', hsame'⟩ := h' i th'' hth''
  obtain ⟨th, hth, hsame⟩ := h i th' hth'
  exact ⟨th, hth, hsame.trans hsame'⟩

theorem survive_modifyThread {f : Thread β → Thread β} (hf : ∀ th, Thread.Same th (f th)) :
    Survive t (t.modifyThread id f) := by
  intro i th' hth'
  obtain ⟨th, hth, rfl⟩ := ThreadTable.of_find?_modify hth' fun th => (hf th).id
  refine ⟨th, hth, ?_⟩
  split
  · exact hf th
  · exact .refl th

theorem Survive.of_find? (h : ∀ i, u.threads.find? i = t.threads.find? i) : Survive t u := by
  intro i th hth
  exact ⟨th, h i ▸ hth, .refl th⟩

theorem Readied.survive {ids : List ThreadId} (h : Readied ids t t') : Survive t t' := by
  intro i th' hth'
  rw [h.find?, Option.map_eq_some_iff] at hth'
  obtain ⟨th, hth, rfl⟩ := hth'
  refine ⟨th, hth, ?_⟩
  split
  · exact ⟨rfl, rfl, rfl, rfl, rfl, rfl⟩
  · exact .refl th

theorem Reaped.survive {ids : List ThreadId} (h : Reaped ids t t') : Survive t t' := by
  intro i th hth
  rw [h.find?] at hth
  split at hth
  · cases hth
  · exact ⟨th, hth, .refl th⟩

/-! ## The same threads on the same pages -/

/-- The threads that live are the same, and so are their pages, the pool and the list of those that wait
to be reclaimed. -/
structure Steady (t u : Tables β) : Prop where
  survive : Survive t u
  lives : ∀ i, (u.threads.find? i).isSome = (t.threads.find? i).isSome
  size : u.threads.size = t.threads.size
  pool : u.pool = t.pool
  reclaim : u.reclaim = t.reclaim
  boot : u.boot = t.boot
  capacity : u.ready.capacity = t.ready.capacity

theorem Steady.refl (t : Tables β) : Steady t t :=
  ⟨.refl t, fun _ => rfl, rfl, rfl, rfl, rfl, rfl⟩

theorem Steady.trans (h : Steady t u) (h' : Steady u t') : Steady t t' :=
  ⟨h.survive.trans h'.survive, fun i => (h'.lives i).trans (h.lives i), h'.size.trans h.size,
    h'.pool.trans h.pool, h'.reclaim.trans h.reclaim, h'.boot.trans h.boot,
    h'.capacity.trans h.capacity⟩

theorem Steady.of_threads (hthreads : u.threads = t.threads) (hpool : u.pool = t.pool)
    (hreclaim : u.reclaim = t.reclaim) (hboot : u.boot = t.boot)
    (hcapacity : u.ready.capacity = t.ready.capacity) : Steady t u :=
  ⟨.of_find? fun _ => by rw [hthreads], fun _ => by rw [hthreads], by rw [hthreads], hpool, hreclaim,
    hboot, hcapacity⟩

theorem steady_withSleepers (r : SleepRegistry) : Steady t { t with sleepers := r } :=
  .of_threads rfl rfl rfl rfl rfl

theorem steady_modifyThread {f : Thread β → Thread β} (hf : ∀ th, Thread.Same th (f th)) :
    Steady t (t.modifyThread id f) := by
  refine ⟨survive_modifyThread hf, fun i => ?_, ThreadTable.size_modify f, rfl, rfl, rfl, rfl⟩
  rw [find?_modifyThread (fun th => (hf th).id), Option.isSome_map]

theorem Readied.steady {ids : List ThreadId} (h : Readied ids t t') : Steady t t' := by
  have hfields : t'.pool = t.pool ∧ t'.reclaim = t.reclaim ∧ t'.boot = t.boot := by
    rw [h.rest]
    exact ⟨rfl, rfl, rfl⟩
  refine ⟨h.survive, fun i => ?_, h.size, hfields.1, hfields.2.1, hfields.2.2, h.capacity⟩
  rw [h.find?, Option.isSome_map]

theorem steady_unblock (h : t.unblock id = .ok t') : Steady t t' := (readied_of_unblock h).steady

theorem steady_wakeDue {now count : Nat} (h : t.wakeDue now = .ok (count, t')) : Steady t t' := by
  rcases wakeDue_eq_ok_iff.mp h with ⟨_, _, hm⟩ | ⟨_, _, rfl⟩
  · exact (steady_withSleepers _).trans (readied_of_makeAllReady hm).steady
  · exact .refl _

theorem steady_tick {user asks : Bool} {now timeSlice : Nat}
    (h : t.tick user now timeSlice = .ok (asks, t')) : Steady t t' := by
  obtain ⟨woken, u, c, stats, hw, _, _, _, _, rfl⟩ := tick_eq_ok_iff.mp h
  exact (steady_wakeDue hw).trans (.of_threads rfl rfl rfl rfl rfl)

/-! ## Becoming ready, and ticks -/

theorem rest_readied : t.readied id =
    { t with threads := (t.readied id).threads, ready := (t.readied id).ready } := by
  unfold readied
  split <;> rfl

theorem rest_of_unblock (h : t.unblock id = .ok t') :
    t' = { t with threads := t'.threads, ready := t'.ready } := by
  obtain ⟨_, _, rfl⟩ := unblock_eq_ok_iff.mp h
  exact rest_readied

/-- What a wake touches. -/
theorem rest_of_wakeDue {now count : Nat} (h : t.wakeDue now = .ok (count, t')) :
    t' = { t with threads := t'.threads, ready := t'.ready, sleepers := t'.sleepers } := by
  rcases wakeDue_eq_ok_iff.mp h with ⟨_, _, hm⟩ | ⟨_, _, rfl⟩
  · rw [(readied_of_makeAllReady hm).rest]
  · rfl

theorem rest_of_tick {user asks : Bool} {now timeSlice : Nat}
    (h : t.tick user now timeSlice = .ok (asks, t')) :
    t' = { t with
      threads := t'.threads
      ready := t'.ready
      sleepers := t'.sleepers
      stats := t'.stats
      sliceTicks := t.sliceTicks + 1 } := by
  obtain ⟨woken, u, c, stats, hw, _, _, _, _, rfl⟩ := tick_eq_ok_iff.mp h
  rw [rest_of_wakeDue hw]
  rfl

/-! ## Marked tables -/

/-- The tables with a thread marked for where it is to wait. -/
def marked (way : Way) (c : ThreadId) (t : Tables β) : Tables β :=
  match way with
  | .block => t
  | .yield => if t.idle = some c then t else t.requeued c
  | .sleep wakeTick => t.asleep c wakeTick
  | .exit => t

theorem current_of_mark (h : t.mark way = .ok u) : u.current = t.current := by
  cases way with
  | block => cases h; rfl
  | exit => cases h; rfl
  | yield =>
    obtain ⟨_, _, hcase⟩ := requeueCurrent_eq_ok_iff.mp h
    rcases hcase with ⟨_, rfl⟩ | ⟨_, _, _, rfl⟩ <;> rfl
  | sleep w =>
    obtain ⟨_, _, _, _, _, rfl⟩ := fallAsleep_eq_ok_iff.mp h
    rfl

theorem eq_marked_of_mark (h : t.mark way = .ok u) (hc : t.current = some c) :
    u = t.marked way c := by
  cases way with
  | block => cases h; rfl
  | exit => cases h; rfl
  | yield =>
    obtain ⟨c', hc', hcase⟩ := requeueCurrent_eq_ok_iff.mp h
    rw [hc, Option.some.injEq] at hc'
    subst hc'
    rcases hcase with ⟨hidle, rfl⟩ | ⟨hidle, _, _, rfl⟩
    · exact (if_pos hidle).symm
    · exact (if_neg hidle).symm
  | sleep w =>
    obtain ⟨c', hc', _, _, _, rfl⟩ := fallAsleep_eq_ok_iff.mp h
    rw [hc, Option.some.injEq] at hc'
    rw [hc']
    rfl

/-- A mark touches one thread, the queue and the registry. -/
theorem rest_marked : t.marked way c = { t with
    threads := (t.marked way c).threads
    ready := { t.ready with ids := (t.marked way c).ready.ids }
    sleepers := (t.marked way c).sleepers } := by
  cases way with
  | block => rfl
  | exit => rfl
  | sleep w => rfl
  | yield => unfold marked; dsimp only; split <;> rfl

@[simp] theorem idle_marked : (t.marked way c).idle = t.idle := by rw [rest_marked]

@[simp] theorem boot_marked : (t.marked way c).boot = t.boot := by rw [rest_marked]

@[simp] theorem reclaim_marked : (t.marked way c).reclaim = t.reclaim := by rw [rest_marked]

@[simp] theorem pool_marked : (t.marked way c).pool = t.pool := by rw [rest_marked]

@[simp] theorem stats_marked : (t.marked way c).stats = t.stats := by rw [rest_marked]

@[simp] theorem switches_marked : (t.marked way c).switches = t.switches := by rw [rest_marked]

@[simp] theorem capacity_marked : (t.marked way c).ready.capacity = t.ready.capacity := by
  rw [rest_marked]

/-- A mark changes where its thread waits, and neither its status nor what stays with a thread. -/
theorem threads_marked (way : Way) (c : ThreadId) (t : Tables β) :
    ∃ f : Thread β → Thread β, (∀ th, Thread.Same th (f th) ∧ (f th).status = th.status) ∧
      (t.marked way c).threads = t.threads.modify c f := by
  have hsame : t.threads = t.threads.modify c fun th => th := by
    unfold ThreadTable.modify
    simp
  cases way with
  | block => exact ⟨_, fun th => ⟨.refl th, rfl⟩, hsame⟩
  | exit => exact ⟨_, fun th => ⟨.refl th, rfl⟩, hsame⟩
  | sleep w =>
    exact ⟨fun th => { th with wakeTick := w, link := .sleeping },
      fun _ => ⟨⟨rfl, rfl, rfl, rfl, rfl, rfl⟩, rfl⟩, rfl⟩
  | yield =>
    unfold marked
    dsimp only
    split
    · exact ⟨_, fun th => ⟨.refl th, rfl⟩, hsame⟩
    · exact ⟨fun th => { th with link := .ready },
        fun _ => ⟨⟨rfl, rfl, rfl, rfl, rfl, rfl⟩, rfl⟩, rfl⟩

theorem find?_marked_ne (hne : i ≠ c) :
    (t.marked way c).threads.find? i = t.threads.find? i := by
  obtain ⟨f, hf, hthreads⟩ := threads_marked way c t
  rw [hthreads]
  exact ThreadTable.find?_modify_ne hne fun th => (hf th).1.id

theorem steady_marked : Steady t (t.marked way c) := by
  obtain ⟨f, hf, hthreads⟩ := threads_marked way c t
  have hmodified : Steady t (t.modifyThread c f) := steady_modifyThread fun th => (hf th).1
  exact hmodified.trans (.of_threads hthreads pool_marked reclaim_marked boot_marked capacity_marked)

/-- A marked thread lives on, in the status that it has. -/
theorem find?_marked_self (hth : t.threads.find? c = some th) :
    ∃ th', (t.marked way c).threads.find? c = some th' ∧ th'.status = th.status := by
  obtain ⟨f, hf, hthreads⟩ := threads_marked way c t
  refine ⟨f th, ?_, (hf th).2⟩
  rw [hthreads, ThreadTable.find?_modify _ _ _ _ (fun th => (hf th).1.id), hth]
  simp

/-! ## Decisions -/

/-- The processor went from one thread to another: what changed apart from those two, the dead and
their pages. -/
structure Parting (way : Way) (d : Dispatch) (t t' : Tables β) : Prop where
  previous : t.current = some d.previous
  next : (t.marked way d.previous).upNext = some d.next
  current : t'.current = some d.next
  idle : t'.idle = t.idle
  boot : t'.boot = t.boot
  capacity : t'.ready.capacity = t.ready.capacity
  queue : t'.ready.ids = (t.marked way d.previous).ready.ids.tail
  sleepers : t'.sleepers = (t.marked way d.previous).sleepers
  sliceTicks : t'.sliceTicks = 0
  stats : t'.stats = t.stats
  switches : t'.switches = if d.previous = d.next then t.switches else t.switches + 1
  survive : Survive t t'
  outgoing : d.previous ≠ d.next →
    ∃ th, t'.threads.find? d.previous = some th ∧ th.status = way.status
  others : ∀ i, i ≠ d.previous → i ≠ d.next →
    t'.threads.find? i = if i ∈ t.reclaim then none else t.threads.find? i

/-- Retiring a thread touches that thread and the list of those that wait to be reclaimed. -/
theorem rest_retired : t.retired c =
    { t with threads := (t.retired c).threads, reclaim := (t.retired c).reclaim } := by
  unfold retired
  split <;> rfl

theorem rest_handedOver : t.handedOver c n = { t with
    threads := (t.handedOver c n).threads
    reclaim := (t.handedOver c n).reclaim
    ready := t.ready.pop.2
    current := some n
    sliceTicks := 0
    switches := if c = n then t.switches else t.switches + 1 } := by
  unfold handedOver
  by_cases hcn : c = n
  · simp only [if_pos hcn]
    rfl
  · simp only [if_neg hcn]
    rw [rest_retired]
    rfl

/-- Whatever the status in which a thread gives up the processor, the next one is then current. -/
theorem current_of_giveUp {status : Status} {d : Dispatch} (h : t.giveUp status = .ok (d, t')) :
    t'.current = some d.next := by
  obtain ⟨_, _, _, _, _, _, _, hdispatch⟩ := giveUp_eq_ok_iff.mp h
  obtain ⟨_, _, _, _, _, rfl⟩ := dispatch_eq_ok_iff.mp hdispatch
  rw [rest_handedOver]

theorem survive_handedOver : Survive t (t.handedOver c n) := by
  have hinstall : Survive t (t.popped.install n) :=
    survive_modifyThread (t := t) (f := fun th => { th with status := .running, link := .unlinked })
      fun _ => ⟨rfl, rfl, rfl, rfl, rfl, rfl⟩
  unfold handedOver
  dsimp only
  split
  · exact hinstall
  · refine hinstall.trans ?_
    unfold retired
    split
    · exact survive_modifyThread (t := t.popped.install n) (f := fun th => { th with link := .reclaim })
        fun _ => ⟨rfl, rfl, rfl, rfl, rfl, rfl⟩
    · exact .of_find? fun _ => rfl

theorem find?_handedOver_ne (hc : i ≠ c) (hn : i ≠ n) :
    (t.handedOver c n).threads.find? i = t.threads.find? i := by
  have hinstall : (t.popped.install n).threads.find? i = t.threads.find? i := by
    refine Eq.trans (ThreadTable.find?_modify_ne hn fun _ => rfl) ?_
    rfl
  unfold handedOver
  dsimp only
  split
  · exact hinstall
  · refine Eq.trans ?_ hinstall
    unfold retired
    split
    · exact ThreadTable.find?_modify_ne hc fun _ => rfl
    · rfl

/-- The thread that the processor leaves keeps its status. -/
theorem status_handedOver (hcn : c ≠ n) (hth : t.threads.find? c = some th) :
    ∃ th', (t.handedOver c n).threads.find? c = some th' ∧ th'.status = th.status := by
  have hinstall : (t.popped.install n).threads.find? c = some th := by
    refine Eq.trans (ThreadTable.find?_modify_ne hcn fun _ => rfl) ?_
    exact hth
  unfold handedOver
  dsimp only
  rw [if_neg hcn]
  unfold retired
  split
  · refine ⟨{ th with link := .reclaim }, ?_, rfl⟩
    refine (find?_modifyThread (f := fun th => { th with link := .reclaim }) (fun _ => rfl) c).trans ?_
    rw [hinstall, Option.map_some, if_pos rfl]
  · exact ⟨th, hinstall, rfl⟩

/-- Leaving, step by step: the current thread is marked, the dead before it are freed, it stops, and the
processor is handed over. -/
theorem steps_of_leave (h : t.leave way = .ok (d, t')) :
    t.current = some d.previous ∧ ∃ v, (t.marked way d.previous).reap = .ok v ∧
      (v.modifyThread d.previous fun th => { th with status := way.status }).dispatch = .ok (d, t') := by
  obtain ⟨u, hu, hg⟩ := leave_eq_ok_iff.mp h
  obtain ⟨c, th, v, hc, hth, hrun, hreap, hd⟩ := giveUp_eq_ok_iff.mp hg
  have hcd : c = d.previous := by
    -- the freeing of the dead does not change who is current
    have hsame : v.current = u.current := by rw [(reaped_of_reap hreap).rest]
    have hcur : v.current = some d.previous := (dispatch_eq_ok_iff.mp hd).1
    rw [hsame, hc, Option.some.injEq] at hcur
    exact hcur
  subst hcd
  have hcurrent : t.current = some d.previous := (current_of_mark hu).symm.trans hc
  rw [eq_marked_of_mark hu hcurrent] at hreap
  exact ⟨hcurrent, v, hreap, hd⟩

/-- Every way to leave parts with the current thread. -/
theorem parting_of_leave (h : t.leave way = .ok (d, t')) : Parting way d t t' := by
  obtain ⟨hcurrent, v, hreap, hd⟩ := steps_of_leave h
  obtain ⟨_, hnext, ⟨out, hout, _⟩, _, _, rfl⟩ := dispatch_eq_ok_iff.mp hd
  have hr := reaped_of_reap hreap
  -- what the freeing of the dead leaves alone
  have hreaped : v.idle = (t.marked way d.previous).idle ∧ v.boot = (t.marked way d.previous).boot ∧
      v.ready = (t.marked way d.previous).ready ∧ v.stats = (t.marked way d.previous).stats ∧
      v.switches = (t.marked way d.previous).switches ∧
      v.sleepers = (t.marked way d.previous).sleepers := by
    rw [hr.rest]
    exact ⟨rfl, rfl, rfl, rfl, rfl, rfl⟩
  obtain ⟨hidle, hboot, hready, hstats, hswitches, hsleepers⟩ := hreaped
  rw [rest_handedOver]
  constructor
  case previous => exact hcurrent
  case next =>
    have hup : v.upNext = some d.next := hnext
    rw [upNext, hready, hidle] at hup
    exact hup
  case current => rfl
  case idle => exact hidle.trans idle_marked
  case boot => exact hboot.trans boot_marked
  case capacity => exact (congrArg ReadyQueue.capacity hready).trans capacity_marked
  case queue => exact congrArg (·.ids.tail) hready
  case sleepers => exact hsleepers
  case sliceTicks => rfl
  case stats => exact hstats.trans stats_marked
  case switches =>
    rw [← hswitches.trans switches_marked]
    rfl
  case survive =>
    rw [← rest_handedOver]
    -- marked, reaped, stopped and handed over: a thread keeps its own through all four
    have hstop : Survive v (v.modifyThread d.previous fun th => { th with status := way.status }) :=
      survive_modifyThread (f := fun th => { th with status := way.status })
        fun _ => ⟨rfl, rfl, rfl, rfl, rfl, rfl⟩
    exact ((steady_marked.survive.trans hr.survive).trans hstop).trans survive_handedOver
  case outgoing =>
    intro hne
    rw [← rest_handedOver]
    obtain ⟨th', hth', hstatus⟩ := status_handedOver hne hout
    obtain ⟨th₀, _, rfl⟩ := ThreadTable.of_find?_modify hout fun _ => rfl
    refine ⟨th', hth', hstatus.trans ?_⟩
    rw [if_pos rfl]
  case others =>
    intro i hi hn
    rw [← rest_handedOver, find?_handedOver_ne hi hn]
    refine Eq.trans (ThreadTable.find?_modify_ne hi fun _ => rfl) ?_
    rw [hr.find?, reclaim_marked]
    split
    · rfl
    · exact find?_marked_ne hi

/-! ## The queue grows at its tail -/

theorem queue_of_unblock (h : t.unblock id = .ok t') :
    ∃ more, t'.ready.ids = t.ready.ids ++ more := by
  obtain ⟨_, _, rfl⟩ := unblock_eq_ok_iff.mp h
  unfold readied
  split
  · exact ⟨[], (List.append_nil _).symm⟩
  · exact ⟨[id], rfl⟩

theorem queue_of_tick {user asks : Bool} {now timeSlice : Nat}
    (h : t.tick user now timeSlice = .ok (asks, t')) :
    ∃ more, t'.ready.ids = t.ready.ids ++ more := by
  obtain ⟨woken, u, c, stats, hw, _, _, _, _, rfl⟩ := tick_eq_ok_iff.mp h
  rcases wakeDue_eq_ok_iff.mp hw with ⟨_, _, hm⟩ | ⟨_, _, rfl⟩
  · exact ⟨_, (readied_of_makeAllReady hm).queue⟩
  · exact ⟨[], (List.append_nil _).symm⟩

/-- A decision takes the head of the queue, which the thread that leaves may have joined before. -/
theorem queue_of_leave (h : t.leave way = .ok (d, t')) :
    ∃ more, (∀ i ∈ more, i = d.previous) ∧
      (t.ready.ids ++ more).head?.or t.idle = some d.next ∧
      t'.ready.ids = (t.ready.ids ++ more).tail := by
  have hparting := parting_of_leave h
  -- only a yield puts the current thread into the queue first
  have hjoin : ∃ more, (∀ i ∈ more, i = d.previous) ∧
      (t.marked way d.previous).ready.ids = t.ready.ids ++ more := by
    cases way with
    | block => exact ⟨[], nofun, (List.append_nil _).symm⟩
    | exit => exact ⟨[], nofun, (List.append_nil _).symm⟩
    | sleep w => exact ⟨[], nofun, (List.append_nil _).symm⟩
    | yield =>
      unfold marked
      dsimp only
      split
      · exact ⟨[], nofun, (List.append_nil _).symm⟩
      · exact ⟨[d.previous], fun i hi => List.mem_singleton.mp hi, rfl⟩
  obtain ⟨more, honly, hmore⟩ := hjoin
  have hnext := hparting.next
  rw [upNext, hmore, idle_marked] at hnext
  exact ⟨more, honly, hnext, by rw [hparting.queue, hmore]⟩

end Tables
end RoundRobin
