import RoundRobin.Proofs.RegistryContents
import RoundRobin.Proofs.Tables.Progress
import RoundRobin.Proofs.Tables.Reclaim

/-!
# Tables as a scene

A scene is all that there is to know of the tables, with threads found by their ids and sleepers in a
plain list. What a timer interrupt means is said on scenes, in functions that cannot fail. The critical
sections of the tables fail in many places; where they do not, they do what these functions say.
-/

namespace RoundRobin

/-- What there is to know of tables. Only the tick that the registry caches is left out. -/
@[ext]
structure Scene (β : Type) where
  thread : ThreadId → Option (Thread β)
  /-- Who is ready, the next one first. -/
  queue : List ThreadId
  /-- Threads that the queue has room for. -/
  room : Nat
  /-- Who sleeps, the earliest first. -/
  sleepers : List Sleeper
  /-- Who died and was not removed yet. -/
  dead : List ThreadId
  pool : PagePool
  current : Option ThreadId
  idle : Option ThreadId
  boot : Option ThreadId
  sliceTicks : Nat
  stats : TickStats
  switches : Nat

/-- What the tables show. -/
def Tables.scene {β : Type} (t : Tables β) : Scene β where
  thread := t.threads.find?
  queue := t.ready.ids
  room := t.ready.capacity
  sleepers := t.sleepers.sleepers
  dead := t.reclaim
  pool := t.pool
  current := t.current
  idle := t.idle
  boot := t.boot
  sliceTicks := t.sliceTicks
  stats := t.stats
  switches := t.switches

namespace Scene

variable {β : Type}

/-! ## A timer interrupt, in functions -/

/-- Who has to be woken by `now`, in order. -/
def due (now : Nat) (s : Scene β) : List ThreadId :=
  (s.sleepers.filter fun x => x.wakeTick ≤ now).map (·.thread)

/-- Those who are due join the queue. -/
def wake (now : Nat) (s : Scene β) : Scene β :=
  { s with
    thread i := (s.thread i).map fun th =>
      if i ∈ s.due now then { th with status := .ready, link := .ready } else th
    queue := s.queue ++ s.due now
    sleepers := s.sleepers.filter fun x => now < x.wakeTick }

/-- The tick is charged to a kind of thread, and to the slice. -/
def charge (kind : TickKind) (s : Scene β) : Scene β :=
  { s with stats := s.stats.plus kind, sliceTicks := s.sliceTicks + 1 }

/-- The page that a thread has, if it has one. -/
def page (s : Scene β) (id : ThreadId) : Option Page := (s.thread id).bind (·.page)

/-- The dead are removed, and their pages come back. -/
def bury (s : Scene β) : Scene β :=
  { s with
    thread i := if i ∈ s.dead then none else s.thread i
    dead := []
    pool := (s.dead.map s.page).foldl PagePool.regain s.pool }

/-- A thread stops and is ready. It joins the queue, unless it is the idle thread. -/
def requeue (c : ThreadId) (s : Scene β) : Scene β :=
  { s with
    thread i := (s.thread i).map fun th =>
      if i = c then
        { th with status := .ready, link := if s.idle = some c then .unlinked else .ready }
      else th
    queue := if s.idle = some c then s.queue else s.queue ++ [c] }

/-- Who comes next: the head of the queue, or else the idle thread. -/
def next (s : Scene β) : Option ThreadId := s.queue.head?.or s.idle

/-- The next thread runs after `c`. -/
def runNext (c : ThreadId) (s : Scene β) : Scene β :=
  match s.next with
  | none => s
  | some n =>
    { s with
      thread i := (s.thread i).map fun th =>
        if i = n then { th with status := .running, link := .unlinked } else th
      queue := s.queue.tail
      current := some n
      sliceTicks := 0
      switches := if c = n then s.switches else s.switches + 1 }

/-- A thread yields. -/
def yield (c : ThreadId) (s : Scene β) : Scene β := (s.bury.requeue c).runNext c

/-- Whether a tick takes the processor away from a thread: it was the last one of its slice, or it is the
idle thread and somebody has to be woken. -/
def preempts (c : ThreadId) (now timeSlice : Nat) (s : Scene β) : Bool :=
  decide (timeSlice ≤ s.sliceTicks + 1) || s.idle == some c && !(s.due now).isEmpty

/-- A whole interrupt, which finds `c` running. -/
def interrupt (c : ThreadId) (kind : TickKind) (now timeSlice : Nat) (s : Scene β) : Scene β :=
  let ticked := (s.wake now).charge kind
  if s.preempts c now timeSlice then ticked.yield c else ticked

/-- Nobody is due while all sleep on. -/
theorem due_eq_nil {now : Nat} {s : Scene β} (hlater : ∀ x ∈ s.sleepers, now < x.wakeTick) :
    s.due now = [] := by
  refine List.map_eq_nil_iff.mpr (List.filter_eq_nil_iff.mpr fun x hx => ?_)
  simpa using hlater x hx

/-- Then a wake changes nothing. -/
theorem wake_of_later {now : Nat} {s : Scene β} (hlater : ∀ x ∈ s.sleepers, now < x.wakeTick) :
    s.wake now = s := by
  have hall : (s.sleepers.filter fun x => now < x.wakeTick) = s.sleepers :=
    List.filter_eq_self.mpr fun x hx => by simpa using hlater x hx
  simp [wake, due_eq_nil hlater, hall]

end Scene

namespace Tables

variable {β : Type} {t t' u : Tables β} {c n : ThreadId} {now timeSlice : Nat} {user asks : Bool}
  {d : Dispatch}

/-! ## Ticks -/

/-- Sleepers are readied as the scene says, whether or not the cached tick says that anybody is due. -/
theorem Sound.scene_of_wakeDue {woken : Nat} (hsound : Sound t) (hord : t.sleepers.Ordered)
    (h : t.wakeDue now = .ok (woken, u)) :
    u.scene = t.scene.wake now ∧ woken = (t.scene.due now).length := by
  rcases wakeDue_eq_ok_iff.mp h with ⟨_, hcount, hm⟩ | ⟨hdue, hcount, hsame⟩
  · have hr := readied_of_makeAllReady hm
    have hids : (t.sleepers.wake now).1 = t.scene.due now := by
      rw [SleepRegistry.wake, SleepRegistry.Sorted.takeWhile_matured hord.sorted]
      rfl
    have hrest : (t.sleepers.wake now).2.sleepers = t.sleepers.sleepers.filter fun x =>
        now < x.wakeTick := SleepRegistry.Sorted.dropWhile_matured hord.sorted now
    -- the idle thread does not sleep, so everybody who wakes is queued
    have hnotIdle : ∀ i ∈ t.scene.due now, t.idle ≠ some i := by
      intro i hi
      obtain ⟨x, hx, rfl⟩ := List.mem_map.mp hi
      exact (hsound.sleeps (List.mem_filter.mp hx).1).notIdle
    rw [hids] at hr hcount
    refine ⟨?_, hcount⟩
    have hqueue : u.ready.ids = t.ready.ids ++ t.scene.due now := by
      rw [hr.queue, List.filter_eq_self.mpr fun i hi => by simpa using hnotIdle i hi]
    have hthreads : u.threads.find? = (t.scene.wake now).thread := by
      funext i
      rw [hr.find?]
      refine Option.map_congr fun th _ => ?_
      split
      · next hi => rw [if_neg (hnotIdle i hi)]
      · rfl
    rw [hr.rest]
    simp only [scene, Scene.wake, hqueue, hthreads, hr.capacity, hrest]
  · have hlater : ∀ x ∈ t.scene.sleepers, now < x.wakeTick := fun x hx => hord.lt_of_not_due hdue hx
    rw [hsame, hcount, Scene.due_eq_nil hlater, Scene.wake_of_later hlater]
    exact ⟨rfl, rfl⟩

/-- A tick, and when it asks for a yield. -/
theorem Sound.scene_of_tick (hsound : Sound t) (hord : t.sleepers.Ordered) (hc : t.current = some c)
    (h : t.tick user now timeSlice = .ok (asks, t')) :
    t'.scene = (t.scene.wake now).charge (kindOf t.idleRuns user) ∧
      asks = t.scene.preempts c now timeSlice := by
  have hstats := stats_of_tick h
  obtain ⟨woken, u, c', stats, hw, hc', _, _, hasks, rfl⟩ := tick_eq_ok_iff.mp h
  obtain ⟨hscene, hcount⟩ := hsound.scene_of_wakeDue hord hw
  have hsame : u.current = t.current ∧ u.idle = t.idle ∧ u.sliceTicks = t.sliceTicks ∧
      u.stats = t.stats := by
    rw [rest_of_wakeDue hw]
    exact ⟨rfl, rfl, rfl, rfl⟩
  obtain ⟨hcurrent, hidle, hslice, hustats⟩ := hsame
  rw [hcurrent, hc, Option.some.injEq] at hc'
  subst hc'
  constructor
  · have hcharged : (u.charged stats).scene
        = { u.scene with stats, sliceTicks := u.scene.sliceTicks + 1 } := rfl
    rw [hcharged, hscene, show stats = t.stats.plus (kindOf t.idleRuns user) from hstats]
    rfl
  · rw [hasks, Scene.preempts, isIdle, hidle, hcount, hslice]
    cases t.scene.due now with
    | nil => rfl
    | cons => rfl

/-! ## Yields -/

/-- The pages of those who are removed come back, one after the other. -/
theorem pool_of_reapAll {ids : List ThreadId} (h : reapAll ids t = .ok u) (hnodup : ids.Nodup) :
    u.pool = (ids.map t.scene.page).foldl PagePool.regain t.pool := by
  induction ids generalizing t with
  | nil =>
    cases h
    rfl
  | cons id rest ih =>
    obtain ⟨hid, hrest⟩ := List.nodup_cons.mp hnodup
    obtain ⟨v, hv, h⟩ := Fault.bind_eq_ok_iff.mp h
    have hpool : v.pool = t.pool.regain (t.scene.page id) := by
      unfold Scene.page scene
      rcases reapOne_eq_ok_iff.mp hv with ⟨hnone, rfl⟩ | ⟨th, hth, _, _, rfl⟩
      · dsimp only
        rw [hnone]
        rfl
      · dsimp only
        rw [hth]
        rfl
    -- those after the first one are still there when it is gone
    have hpages : rest.map v.scene.page = rest.map t.scene.page := by
      refine List.map_congr_left fun i hi => congrArg (Option.bind · _) ?_
      refine ((reaped_of_reapOne hv).find? i).trans (if_neg fun hmem => hid ?_)
      exact List.mem_singleton.mp hmem ▸ hi
    rw [ih h hrest, hpages, hpool]
    rfl

/-- Where a thread is found that was marked for a yield. -/
theorem find?_marked_yield (i : ThreadId) :
    (t.marked .yield c).threads.find? i = (t.threads.find? i).map fun th =>
      if i = c ∧ t.idle ≠ some c then { th with link := .ready } else th := by
  unfold marked
  dsimp only
  split
  · next hidle => simp [hidle]
  · next hidle =>
    refine (find?_modifyThread (f := fun th => { th with link := .ready }) (fun _ => rfl) i).trans ?_
    simp [hidle]

/-- A mark does not touch a page. -/
theorem page_marked {way : Way} : (t.marked way c).scene.page = t.scene.page := by
  obtain ⟨f, hf, hthreads⟩ := threads_marked way c t
  funext i
  show ((t.marked way c).threads.find? i).bind (·.page) = (t.threads.find? i).bind (·.page)
  rw [hthreads, ThreadTable.find?_modify _ _ _ _ fun th => (hf th).1.id]
  cases t.threads.find? i with
  | none => rfl
  | some th =>
    rw [Option.map_some, Option.bind_some, Option.bind_some]
    split
    · exact (hf th).1.page
    · rfl

/-- However a thread leaves, the pages of the dead come back. -/
theorem Sound.pool_of_reap {way : Way} (hsound : Sound t) (hreap : (t.marked way c).reap = .ok u) :
    u.pool = t.scene.bury.pool := by
  have hnodup : t.reclaim.Nodup := hsound.nodup .reclaim
  unfold reap at hreap
  rw [reclaim_marked] at hreap
  have hpages : ({ t.marked way c with reclaim := [] } : Tables β).scene.page = t.scene.page :=
    page_marked
  rw [pool_of_reapAll hreap hnodup, hpages]
  exact congrArg (List.foldl PagePool.regain · (t.reclaim.map t.scene.page)) pool_marked

theorem Sound.pool_of_leave {way : Way} (hsound : Sound t) (h : t.leave way = .ok (d, t')) :
    t'.pool = t.scene.bury.pool := by
  obtain ⟨_, v, hreap, hd⟩ := steps_of_leave h
  obtain ⟨_, _, _, _, _, rfl⟩ := dispatch_eq_ok_iff.mp hd
  have hsame : ((v.modifyThread d.previous fun th => { th with status := way.status }).handedOver
      d.previous d.next).pool = v.pool := by rw [rest_handedOver]; rfl
  exact hsame.trans (hsound.pool_of_reap hreap)

/-- The current thread is queued again and stopped, and the dead are removed. -/
theorem Sound.scene_of_reap (hsound : Sound t) (hc : t.current = some c)
    (hreap : (t.marked .yield c).reap = .ok u) :
    (u.modifyThread c fun th => { th with status := .ready }).scene = t.scene.bury.requeue c := by
  have hr := reaped_of_reap hreap
  rw [reclaim_marked] at hr
  have hpool := hsound.pool_of_reap hreap
  have hthreads : (u.modifyThread c fun th => { th with status := .ready }).threads.find?
      = (t.scene.bury.requeue c).thread := by
    funext i
    refine (find?_modifyThread (f := fun th => { th with status := .ready }) (fun _ => rfl) i).trans ?_
    show _ = (if i ∈ t.reclaim then none else t.threads.find? i).map _
    rw [hr.find?]
    by_cases hgone : i ∈ t.reclaim
    · rw [if_pos hgone, if_pos hgone]
      rfl
    · rw [if_neg hgone, if_neg hgone, show ({ t.marked .yield c with reclaim := [] } : Tables β).threads.find?
        i = _ from find?_marked_yield i, Option.map_map]
      refine Option.map_congr fun th hth => ?_
      by_cases hi : i = c
      · -- the idle thread is not queued, and was in no container before
        have hunlinked : th.link = .unlinked := by
          have hlink := hsound.linkOf_current hc
          rw [← hi, linkOf_of_find? hth, Option.some.injEq] at hlink
          exact hlink
        by_cases hidle : t.idle = some c
        · simp [hi, hidle, scene, Scene.bury, hunlinked]
        · simp [hi, hidle, scene, Scene.bury]
      · simp [hi]
  have hqueue : u.ready.ids = (t.scene.bury.requeue c).queue ∧ u.sleepers = t.sleepers := by
    have hsame : u.ready = (t.marked .yield c).ready ∧ u.sleepers = (t.marked .yield c).sleepers := by
      rw [hr.rest]
      exact ⟨rfl, rfl⟩
    rw [hsame.1, hsame.2, show t.marked .yield c = if t.idle = some c then t else t.requeued c from rfl]
    split
    · next hidle => exact ⟨(if_pos hidle).symm, rfl⟩
    · next hidle => exact ⟨(if_neg hidle).symm, rfl⟩
  have hrest : u.ready.capacity = t.ready.capacity ∧ u.reclaim = [] ∧ u.current = t.current ∧
      u.idle = t.idle ∧ u.boot = t.boot ∧ u.sliceTicks = t.sliceTicks ∧ u.stats = t.stats ∧
      u.switches = t.switches := by
    rw [hr.rest, rest_marked]
    exact ⟨rfl, rfl, rfl, rfl, rfl, rfl, rfl, rfl⟩
  obtain ⟨hroom, hdead, hcurrent, hidle, hboot, hslice, hstats, hswitches⟩ := hrest
  exact Scene.ext hthreads hqueue.1 hroom (congrArg (·.sleepers) hqueue.2) hdead hpool hcurrent hidle
    hboot hslice hstats hswitches

/-- The processor goes from a thread that is not dead to the next one. -/
theorem scene_handedOver (hn : t.upNext = some n) (halive : t.statusOf c ≠ some .dying) :
    (t.handedOver c n).scene = t.scene.runNext c := by
  have hnext : t.scene.next = some n := hn
  have hthreads : (t.popped.install n).threads.find? = fun i => (t.threads.find? i).map fun th =>
      if i = n then { th with status := .running, link := .unlinked } else th :=
    funext fun i => find?_install i
  unfold handedOver Scene.runNext
  rw [hnext]
  dsimp only
  by_cases hcn : c = n
  · rw [if_pos hcn, if_pos hcn]
    exact Scene.ext hthreads rfl rfl rfl rfl rfl rfl rfl rfl rfl rfl rfl
  · have hstays : (t.popped.install n).retired c = t.popped.install n := by
      refine if_neg fun hdies => halive ?_
      have hstatus := hdies.1
      unfold statusOf at hstatus ⊢
      rw [hthreads] at hstatus
      cases hth : t.threads.find? c with
      | none => simp [hth] at hstatus
      | some th => simpa [hth, hcn] using hstatus
    rw [if_neg hcn, if_neg hcn, hstays]
    exact Scene.ext hthreads rfl rfl rfl rfl rfl rfl rfl rfl rfl rfl rfl

/-- A yield that comes back hands the processor to the next thread. -/
theorem Sound.scene_of_yield (hsound : Sound t) (h : t.leave .yield = .ok (d, t')) :
    t'.scene = t.scene.yield d.previous := by
  obtain ⟨hcurrent, v, hreap, hd⟩ := steps_of_leave h
  obtain ⟨_, hnext, _, _, _, rfl⟩ := dispatch_eq_ok_iff.mp hd
  have hstopped : (v.modifyThread d.previous fun th => { th with status := .ready }).scene
      = t.scene.bury.requeue d.previous := hsound.scene_of_reap hcurrent hreap
  rw [Scene.yield, ← hstopped]
  refine scene_handedOver hnext fun hdying => ?_
  -- it has just stopped, so it is ready
  obtain ⟨th, hth, hst⟩ := statusOf_eq_some_iff.mp hdying
  obtain ⟨th₀, _, rfl⟩ := ThreadTable.of_find?_modify hth fun _ => rfl
  rw [if_pos rfl] at hst
  cases hst

end Tables
end RoundRobin
