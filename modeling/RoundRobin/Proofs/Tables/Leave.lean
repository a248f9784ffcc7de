import RoundRobin.Kernel.Dispatch
import RoundRobin.Proofs.Thread.Table

/-!
# How the running thread leaves

Every way to give up the processor is a mark on the current thread followed by a decision. `leave`
puts the two together, and the lemmas here say, section by section, what a critical section has done
when it comes back: which thread it was about, what the tables are afterwards, and what it needed.
-/

namespace RoundRobin

/-- How the running thread leaves the processor. -/
inductive Way where
  | block
  | yield
  | sleep (wakeTick : Nat)
  | exit
deriving DecidableEq, Repr

/-- The status that the thread is left in. -/
def Way.status : Way → Status
  | block => .blocked
  | yield => .ready
  | sleep _ => .blocked
  | exit => .dying

namespace Fault

variable {α γ : Type}

/-- A section that comes back has come back at every step. -/
theorem bind_eq_ok_iff {x : Except Fault α} {f : α → Except Fault γ} {b : γ} :
    (x >>= f) = .ok b ↔ ∃ a, x = .ok a ∧ f a = .ok b := by
  cases x with
  | error e => simp [bind, Except.bind]
  | ok a => simp [bind, Except.bind]

theorem pure_eq_ok_iff {a b : α} : (pure a : Except Fault α) = .ok b ↔ b = a := by
  simp only [pure, Except.pure, Except.ok.injEq]
  exact eq_comm

end Fault

namespace Tables

variable {β : Type} {t t' u : Tables β} {id c n : ThreadId} {th : Thread β}

/-- Marks where the current thread is to wait. -/
def mark : Way → Tables β → Except Fault (Tables β)
  | .block, t => .ok t
  | .yield, t => t.requeueCurrent
  | .sleep wakeTick, t => t.fallAsleep wakeTick
  | .exit, t => .ok t

/-- The current thread leaves, and the next one gets the processor. -/
def leave (way : Way) (t : Tables β) : Except Fault (Dispatch × Tables β) := do
  giveUp way.status (← t.mark way)

/-! ## Threads that are found -/

@[simp] theorem find?_modifyThread {f : Thread β → Thread β} (hf : ∀ th, (f th).id = th.id)
    (i : ThreadId) :
    (t.modifyThread id f).threads.find? i
      = (t.threads.find? i).map fun th => if i = id then f th else th :=
  ThreadTable.find?_modify t.threads id i f hf

/-! ## Marks -/

/-- The tables with the current thread at the tail of the ready queue. -/
def requeued (c : ThreadId) (t : Tables β) : Tables β :=
  { t.modifyThread c fun th => { th with link := .ready } with
    ready := { t.ready with ids := t.ready.ids ++ [c] } }

/-- The tables with a thread registered to wake at a tick. -/
def asleep (c : ThreadId) (wakeTick : Nat) (t : Tables β) : Tables β :=
  { t.modifyThread c fun th => { th with wakeTick, link := .sleeping } with
    sleepers :=
      { sleepers := SleepRegistry.insert ⟨c, wakeTick⟩ t.sleepers.sleepers
        nextWake := min t.sleepers.nextWake wakeTick } }

/-- A thread that yields goes to the tail of the queue, the idle thread apart. -/
theorem requeueCurrent_eq_ok_iff :
    t.requeueCurrent = .ok t' ↔ ∃ c, t.current = some c ∧
      ((t.idle = some c ∧ t' = t) ∨
        (t.idle ≠ some c ∧ (∃ th, t.threads.find? c = some th) ∧
          t.ready.ids.length < t.ready.capacity ∧ t' = t.requeued c)) := by
  unfold requeueCurrent
  rw [Fault.bind_eq_ok_iff]
  simp only [currentId_eq_ok_iff]
  refine exists_congr fun c => and_congr_right fun _ => ?_
  by_cases hidle : t.idle = some c
  · rw [if_pos (isIdle_iff.mpr hidle), Fault.pure_eq_ok_iff]
    simp [hidle]
  · rw [if_neg (fun h => hidle (isIdle_iff.mp h)), Fault.bind_eq_ok_iff]
    simp only [thread_eq_ok_iff, pushReady, Fault.bind_eq_ok_iff, Fault.pure_eq_ok_iff,
      ReadyQueue.push_eq_ok_iff]
    constructor
    · rintro ⟨th, hth, q, ⟨hroom, rfl⟩, rfl⟩
      exact .inr ⟨hidle, ⟨th, hth⟩, hroom, rfl⟩
    · rintro (⟨h, _⟩ | ⟨_, ⟨th, hth⟩, hroom, rfl⟩)
      · exact absurd h hidle
      · exact ⟨th, hth, _, ⟨hroom, rfl⟩, rfl⟩

/-- A thread that falls asleep is registered under the tick that it keeps. -/
theorem fallAsleep_eq_ok_iff {w : Nat} :
    t.fallAsleep w = .ok t' ↔ ∃ c, t.current = some c ∧ t.idle ≠ some c ∧
      (∃ th, t.threads.find? c = some th) ∧ t.sleepers.contains c = false ∧
      t' = t.asleep c w := by
  unfold fallAsleep
  rw [Fault.bind_eq_ok_iff]
  simp only [currentId_eq_ok_iff]
  refine exists_congr fun c => and_congr_right fun _ => ?_
  by_cases hidle : t.idle = some c
  · rw [if_pos (isIdle_iff.mpr hidle)]
    simp [hidle, throw, throwThe, MonadExceptOf.throw]
  · rw [if_neg (fun h => hidle (isIdle_iff.mp h)), Fault.bind_eq_ok_iff]
    simp only [thread_eq_ok_iff, Fault.bind_eq_ok_iff, Fault.pure_eq_ok_iff,
      SleepRegistry.register_eq_ok_iff]
    constructor
    · rintro ⟨th, hth, r, ⟨hout, rfl⟩, rfl⟩
      exact ⟨hidle, ⟨th, hth⟩, hout, rfl⟩
    · rintro ⟨_, ⟨th, hth⟩, hout, rfl⟩
      exact ⟨th, hth, _, ⟨hout, rfl⟩, rfl⟩

/-! ## Freeing the dead -/

/-- The tables without a dead thread, its page back in the pool. -/
def removed (th : Thread β) (t : Tables β) : Tables β :=
  { t with threads := t.threads.erase th.id, pool := t.pool.regain th.page }

theorem reapOne_eq_ok_iff :
    reapOne id t = .ok t' ↔
      (t.threads.find? id = none ∧ t' = t) ∨
        ∃ th, t.threads.find? id = some th ∧ th.status = .dying ∧
          (∀ page ∈ th.page, page.size = t.pool.pageSize) ∧ t' = t.removed th := by
  unfold reapOne
  cases hfind : t.threads.find? id with
  | none => simp [eq_comm]
  | some th =>
    -- the page goes back by the thread's own id, which is the one that was looked up
    have hid := ThreadTable.id_of_find? hfind
    subst hid
    by_cases hdying : th.status = .dying
    · cases hpage : th.page with
      | none => simp [hdying, hpage, removed, PagePool.regain, eq_comm]
      | some page =>
        simp only [hdying, hpage, ne_eq, not_true_eq_false, ↓reduceIte, Fault.bind_eq_ok_iff,
          PagePool.giveBack_eq_ok_iff, Fault.pure_eq_ok_iff]
        constructor
        · rintro ⟨_, ⟨hsize, rfl⟩, rfl⟩
          exact .inr ⟨th, rfl, hdying, by simpa [hpage] using hsize, by rw [removed, hpage]⟩
        · rintro (⟨h, _⟩ | ⟨_, h, _, hsize, rfl⟩)
          · cases h
          · cases h
            exact ⟨_, ⟨hsize page hpage, rfl⟩, by rw [removed, hpage]⟩
    · simp [hdying]

/-- What reaping leaves alone, and whom it removes. -/
structure Reaped (ids : List ThreadId) (t t' : Tables β) : Prop where
  rest : t' = { t with threads := t'.threads, pool := t'.pool }
  find? : ∀ i, t'.threads.find? i = if i ∈ ids then none else t.threads.find? i
  distinct : t.threads.Distinct → t'.threads.Distinct

theorem reaped_of_reapOne (h : reapOne id t = .ok t') : Reaped [id] t t' := by
  rcases reapOne_eq_ok_iff.mp h with ⟨hnone, rfl⟩ | ⟨th, hth, _, _, rfl⟩
  · refine ⟨rfl, fun i => ?_, fun h => h⟩
    by_cases hi : i = id
    · subst hi; simp [hnone]
    · simp [hi]
  · have hid := ThreadTable.id_of_find? hth
    refine ⟨rfl, fun i => ?_, fun h => h.erase _⟩
    simp [removed, ThreadTable.find?_erase, hid]

theorem reaped_of_reapAll {ids : List ThreadId} (h : reapAll ids t = .ok t') :
    Reaped ids t t' := by
  induction ids generalizing t with
  -- each is freed from the tables that those before it left
  | nil => cases h; exact ⟨rfl, fun i => by simp, fun h => h⟩
  | cons id rest ih =>
    obtain ⟨u, hu, h⟩ := Fault.bind_eq_ok_iff.mp h
    have hone := reaped_of_reapOne hu
    have hrest := ih h
    constructor
    · rw [hrest.rest, hone.rest]
    · intro i
      rw [hrest.find?, hone.find?]
      by_cases hi : i = id <;> simp [hi]
    · exact fun h => hrest.distinct (hone.distinct h)

/-- After `reap` nobody waits to be reclaimed, and those who did are gone. -/
theorem reaped_of_reap (h : t.reap = .ok t') :
    Reaped t.reclaim { t with reclaim := [] } t' :=
  reaped_of_reapAll h

/-! ## Decisions -/

/-- Who comes next: the head of the queue, or else the idle thread. -/
def upNext (t : Tables β) : Option ThreadId := t.ready.ids.head?.or t.idle

/-- The head of a queue comes next, or the idle thread when the queue is empty. -/
theorem head_or_idle {queue : List ThreadId} {idle : Option ThreadId}
    (h : queue.head?.or idle = some n) :
    (∃ rest, queue = n :: rest) ∨ queue = [] ∧ idle = some n := by
  cases queue with
  | nil => exact .inr ⟨rfl, h⟩
  | cons i rest =>
    rw [List.head?_cons, Option.some_or, Option.some.injEq] at h
    exact .inl ⟨rest, by rw [h]⟩

/-- The tables without the head of the ready queue. -/
def popped (t : Tables β) : Tables β := { t with ready := t.ready.pop.2 }

@[simp] theorem find?_popped (i : ThreadId) : t.popped.threads.find? i = t.threads.find? i := rfl

@[simp] theorem find?_install (i : ThreadId) :
    (t.install n).threads.find? i = (t.threads.find? i).map fun th =>
      if i = n then { th with status := .running, link := .unlinked } else th :=
  find?_modifyThread (t := t) (f := fun th => { th with status := .running, link := .unlinked })
    (fun _ => rfl) i

theorem takeNext_eq_ok_iff :
    t.takeNext = .ok (n, t') ↔ t.upNext = some n ∧ t' = t.popped := by
  unfold takeNext upNext popped ReadyQueue.pop
  cases hids : t.ready.ids with
  | nil =>
    have hsame : { t with ready := { t.ready with ids := [] } } = t := by rw [← hids]
    simp only [List.head?_nil, List.tail_nil, Option.none_or, hsame]
    cases t.idle with
    | none => simp
    | some i => simp [eq_comm]
  | cons i rest => simp [eq_comm]

def statusOf (t : Tables β) (id : ThreadId) : Option Status :=
  (t.threads.find? id).map (·.status)

theorem statusOf_eq_some_iff {i : ThreadId} {status : Status} :
    t.statusOf i = some status ↔ ∃ th, t.threads.find? i = some th ∧ th.status = status :=
  Option.map_eq_some_iff

/-- A change of a thread that keeps its status. -/
theorem statusOf_modifyThread {i id : ThreadId} {f : Thread β → Thread β}
    (hf : ∀ th, (f th).id = th.id ∧ (f th).status = th.status) :
    (t.modifyThread id f).statusOf i = t.statusOf i := by
  unfold statusOf
  rw [find?_modifyThread (fun th => (hf th).1), Option.map_map]
  congr 1
  funext th
  rw [Function.comp_apply]
  split
  · exact (hf th).2
  · rfl

theorem statusOf_insertThread {i : ThreadId} {th : Thread β} (hne : i ≠ th.id) :
    (t.insertThread th).statusOf i = t.statusOf i := by
  have hfind : (t.insertThread th).threads.find? i = t.threads.find? i := by
    refine (ThreadTable.find?_insert t.threads th i).trans ?_
    rw [if_neg hne]
  unfold statusOf
  rw [hfind]

/-- The tables with a thread that died put aside, unless it is the one that booted. -/
def retired (c : ThreadId) (t : Tables β) : Tables β :=
  if t.statusOf c = some .dying ∧ t.boot ≠ some c then
    { t.modifyThread c fun th => { th with link := .reclaim } with reclaim := c :: t.reclaim }
  else t

@[simp] theorem switches_retired : (t.retired c).switches = t.switches := by
  unfold retired
  split <;> rfl

theorem retire_eq_ok_iff :
    t.retire c = .ok t' ↔ (∃ th, t.threads.find? c = some th) ∧ t' = t.retired c := by
  unfold retire retired statusOf
  rw [Fault.bind_eq_ok_iff]
  simp only [thread_eq_ok_iff]
  rw [← exists_and_right]
  refine exists_congr fun th => and_congr_right fun hth => ?_
  simp only [hth, Option.map_some, Option.some.injEq]
  split <;> exact Fault.pure_eq_ok_iff

theorem countSwitch_eq_ok_iff :
    t.countSwitch = .ok t' ↔
      t.switches < Word.top ∧ t' = { t with switches := t.switches + 1 } := by
  unfold countSwitch
  simp only [Fault.bind_eq_ok_iff, Fault.pure_eq_ok_iff, checkedAdd_eq_ok_iff]
  constructor
  · rintro ⟨_, ⟨h, rfl⟩, rfl⟩; exact ⟨h, rfl⟩
  · rintro ⟨h, rfl⟩; exact ⟨_, ⟨h, rfl⟩, rfl⟩

/-- The tables after the processor went from one thread to another, which may be the same. -/
def handedOver (c n : ThreadId) (t : Tables β) : Tables β :=
  let t := t.popped.install n
  if c = n then t
  else
    let t := t.retired c
    { t with switches := t.switches + 1 }

/-- A decision needs a next thread that lives and is sound, and a current one that has stopped. -/
theorem dispatch_eq_ok_iff {d : Dispatch} :
    t.dispatch = .ok (d, t') ↔
      t.current = some d.previous ∧ t.upNext = some d.next ∧
      (∃ th, t.threads.find? d.previous = some th ∧ th.status ≠ .running) ∧
      (∃ th, t.threads.find? d.next = some th ∧ th.isIntact = true) ∧
      (d.previous ≠ d.next → t.switches < Word.top) ∧
      t' = t.handedOver d.previous d.next := by
  obtain ⟨c, n⟩ := d
  unfold dispatch
  simp only [Fault.bind_eq_ok_iff, currentId_eq_ok_iff, Prod.exists, takeNext_eq_ok_iff]
  constructor
  · rintro ⟨c', hc, n', u, ⟨hn, rfl⟩, out, hout, h⟩
    -- the checks of a decision in their order: the current thread stopped, the next one is sound
    rw [thread_eq_ok_iff] at hout
    split at h
    · cases h
    · next hstop =>
      obtain ⟨inc, hinc, h⟩ := Fault.bind_eq_ok_iff.mp h
      rw [thread_eq_ok_iff] at hinc
      split at h
      · cases h
      · next hintact =>
        have hsound : inc.isIntact = true := by simpa using hintact
        split at h
        · next heq =>
          cases Fault.pure_eq_ok_iff.mp h
          exact ⟨hc, hn, ⟨out, hout, hstop⟩, ⟨inc, hinc, hsound⟩, fun hne => absurd heq hne,
            by rw [handedOver, if_pos heq]⟩
        · next hne =>
          simp only [Fault.bind_eq_ok_iff, retire_eq_ok_iff, countSwitch_eq_ok_iff,
            Fault.pure_eq_ok_iff] at h
          obtain ⟨_, ⟨_, rfl⟩, _, ⟨hroom, rfl⟩, he⟩ := h
          cases he
          rw [switches_retired] at hroom
          exact ⟨hc, hn, ⟨out, hout, hstop⟩, ⟨inc, hinc, hsound⟩, fun _ => hroom,
            by rw [handedOver, if_neg hne]⟩
  · rintro ⟨hc, hn, ⟨out, hout, hstop⟩, ⟨inc, hinc, hsound⟩, hroom, rfl⟩
    refine ⟨c, hc, n, _, ⟨hn, rfl⟩, out, thread_eq_ok_iff.mpr hout, ?_⟩
    rw [if_neg hstop, Fault.bind_eq_ok_iff]
    refine ⟨inc, thread_eq_ok_iff.mpr hinc, ?_⟩
    rw [if_neg (by simp [hsound])]
    unfold handedOver
    split
    · rfl
    · next hne =>
      simp only [Fault.bind_eq_ok_iff, retire_eq_ok_iff, countSwitch_eq_ok_iff,
        Fault.pure_eq_ok_iff]
      refine ⟨_, ⟨?_, rfl⟩, _, ⟨?_, rfl⟩, rfl⟩
      · -- installing the next thread keeps the current one in the table
        exact ⟨_, by rw [find?_install, find?_popped, hout]; rfl⟩
      · rw [switches_retired]; exact hroom hne

/-- Giving up the processor, step by step: nobody waits to be reclaimed any more, the current thread
stops, and a decision is made. -/
theorem giveUp_eq_ok_iff {status : Status} {d : Dispatch} :
    t.giveUp status = .ok (d, t') ↔
      ∃ c th u, t.current = some c ∧ t.threads.find? c = some th ∧ th.status = .running ∧
        t.reap = .ok u ∧
        (u.modifyThread c fun th => { th with status }).dispatch = .ok (d, t') := by
  unfold giveUp
  simp only [Fault.bind_eq_ok_iff, currentId_eq_ok_iff, thread_eq_ok_iff]
  constructor
  · rintro ⟨c, hc, th, hth, h⟩
    split at h
    · cases h
    · next hrun =>
      obtain ⟨u, hu, h⟩ := Fault.bind_eq_ok_iff.mp h
      exact ⟨c, th, u, hc, hth, by simpa using hrun, hu, h⟩
  · rintro ⟨c, th, u, hc, hth, hrun, hu, h⟩
    refine ⟨c, hc, th, hth, ?_⟩
    rw [if_neg (by simp [hrun]), Fault.bind_eq_ok_iff]
    exact ⟨u, hu, h⟩

theorem leave_eq_ok_iff {way : Way} {d : Dispatch} :
    t.leave way = .ok (d, t') ↔ ∃ u, t.mark way = .ok u ∧ u.giveUp way.status = .ok (d, t') :=
  Fault.bind_eq_ok_iff

end Tables
end RoundRobin
