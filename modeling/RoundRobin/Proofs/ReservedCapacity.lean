import RoundRobin.Proofs.Conservation
import RoundRobin.Proofs.Kernel.NotFull
import RoundRobin.Proofs.Sleeping
import RoundRobin.Proofs.Tables.Traffic

/-!
# Reserved capacity suffices

Every container has room for all threads that there can be, from the start. No thread is in two of them,
the running thread is in none, and there are never more threads than pages and one. That bounds the
containers between two calls, and it leaves room at every single insertion inside of them: when a thread
that yields is queued before it has stopped, and when sleepers go over to the queue one by one.
-/

namespace RoundRobin

variable {C : Client} {hooks : Hooks C}

namespace Core

variable {s s' : Core C} {c : Call C.Body} {l : List Transfer} {n : Nat}

/-! ## What calls transfer -/

/-- What a call transfers on an initialized core, in order. -/
inductive Passage (s : Core C) : Call C.Body → List Transfer → Core C → Prop where
  /-- Nothing, and there was no decision. -/
  | still {c : Call C.Body} {s' : Core C} (same : s'.tables.stock = s.tables.stock)
      (undecided : s'.decisions = s.decisions) : Passage s c [] s'
  | start {page : Page} {pool : PagePool} (allocate : s.tables.pool.allocate = some (page, pool)) :
      Passage s .start [.handOut]
        ((s.hired Kernel.idleName Priority.lowest .idleLoop page pool).appointed s.nextId)
  | create {name : String} {priority : Nat} {body : C.Body} {page : Page} {pool : PagePool}
      {t : Tables C.Body} (allocate : s.tables.pool.allocate = some (page, pool))
      (unblock : (s.hired name priority (.body body) page pool).tables.unblock s.nextId = .ok t) :
      Passage s (.create name priority body) (.handOut :: s.tables.readyTransfers s.nextId)
        { s.hired name priority (.body body) page pool with tables := t }
  | unblock {id : ThreadId} {t : Tables C.Body} (unblock : s.tables.unblock id = .ok t) :
      Passage s (.unblock id) (s.tables.readyTransfers id) { s with tables := t }
  | leave {c : Call C.Body} {way : Way} {d : Dispatch} {t : Tables C.Body}
      (leave : s.tables.leave way = .ok (d, t)) (taken : way.TakenBy c) :
      Passage s c (s.tables.leaveTransfers way d) (s.left d t)
  /-- The handler. -/
  | tick {c : Call C.Body} {user asks : Bool} {t : Tables C.Body} (timer : c.isTimer = true)
      (tick : s.tables.tick user (s.ticks + 1) s.config.timeSlice = .ok (asks, t)) :
      Passage s c (s.tables.wakeTransfers (s.ticks + 1)) (s.ticked asks t)
  /-- The handler, and the yield after it. -/
  | preempt {user asks : Bool} {t t' : Tables C.Body} {d : Dispatch}
      (tick : s.tables.tick user (s.ticks + 1) s.config.timeSlice = .ok (asks, t))
      (leave : t.leave .yield = .ok (d, t')) :
      Passage s .onTimerInterrupt
        (s.tables.wakeTransfers (s.ticks + 1) ++ t.leaveTransfers .yield d)
        ((s.ticked asks t).answered.left d t')

/-- The effect of a call is a passage. -/
theorem Effect.passage (h : Effect s c s') (hup : s.initialized = true) :
    ∃ l, Passage s c l s' := by
  have hfull {s₁ : Core C} (ht : Ticked s s₁) : ∃ user asks t,
      s.tables.tick user (s.ticks + 1) s.config.timeSlice = .ok (asks, t) ∧ s₁ = s.ticked asks t := by
    cases ht with
    | early hfresh => exact absurd (hup.symm.trans hfresh) nofun
    | full _ ht => exact ⟨_, _, _, ht, rfl⟩
  cases h with
  | nothing => exact ⟨_, .still rfl rfl⟩
  | advance => exact ⟨_, .still rfl rfl⟩
  | adopt hfresh => exact absurd (hup.symm.trans hfresh) nofun
  | start _ _ hpool => exact ⟨_, .start hpool⟩
  | create _ _ hpool hunblock => exact ⟨_, .create hpool hunblock⟩
  | unblock hunblock => exact ⟨_, .unblock hunblock⟩
  | leave _ hleave htaken => exact ⟨_, .leave hleave htaken⟩
  | prioritize => exact ⟨_, .still rfl rfl⟩
  | timerInterrupt _ _ hticked =>
    obtain ⟨_, _, _, ht, rfl⟩ := hfull hticked
    exact ⟨_, .tick rfl ht⟩
  | tick _ _ hticked =>
    obtain ⟨_, _, _, ht, rfl⟩ := hfull hticked
    exact ⟨_, .tick rfl ht⟩
  | preempt _ _ hticked _ hleave =>
    obtain ⟨_, _, _, ht, rfl⟩ := hfull hticked
    exact ⟨_, .preempt ht hleave⟩

/-- Every transfer of a passage finds room. -/
theorem Passage.carries (h : Passage s c l s') (hfits : s.tables.Fits n) (hsound : s.tables.Sound)
    (hord : s.tables.sleepers.Ordered) : s.tables.stock.Carries n l s'.tables.stock := by
  have hhired (name : String) (priority : Nat) (entry : Entry C.Body) {page : Page} {pool : PagePool}
      (hpool : s.tables.pool.allocate = some (page, pool)) :
      (s.hired name priority entry page pool).tables.stock = s.tables.stock.apply .handOut := by
    obtain ⟨_, _, _, hrest⟩ := PagePool.of_allocate hpool
    have hfree : pool.free = s.tables.pool.free.tail := by rw [hrest]
    show Stock.mk _ _ _ pool.free = _
    rw [hfree]
    rfl
  cases h with
  | still hsame => exact hsame
  | start hpool => exact ⟨trivial, hhired Kernel.idleName Priority.lowest .idleLoop hpool⟩
  | @create name priority body _ _ _ hpool hunblock =>
    refine ⟨trivial, ?_⟩
    rw [← hhired name priority (.body body) hpool]
    exact Tables.carries_unblock hfits.queue_lt hunblock
  | unblock hunblock => exact Tables.carries_unblock hfits.queue_lt hunblock
  | leave hleave => exact hfits.carries_leave hsound hleave
  | tick _ ht => exact hfits.carries_tick hsound hord ht
  | preempt ht hleave =>
    exact (hfits.carries_tick hsound hord ht).append
      ((hfits.tick hsound ht).carries_leave (hsound.tick ht) hleave)

/-! ## The room of the queue -/

/-- Nothing takes room away from the queue. -/
theorem kept_capacity (n : Nat) : Kept (fun s : Core C => s.tables.ready.capacity = n) where
  later h _ := h
  adopted h _ := h
  hired h _ _ := h
  appointed h _ _ _ := h
  unblocked h ht := (Tables.steady_unblock ht).capacity.trans h
  left h _ ht := (Tables.parting_of_leave ht).capacity.trans h
  prioritized h _ := h
  ticked h _ _ ht := (Tables.steady_tick ht).capacity.trans h
  preempted h ht := (Tables.parting_of_leave ht).capacity.trans h

end Core

/-- A queue that has the reserved room finds it at each of its pushes, in the handler as well. -/
theorem Tables.Fits.roomy {k : Kernel C} {n : Nat} (h : k.tables.Fits n) (hsound : k.tables.Sound)
    (hhoused : k.tables.Housed) (hcapacity : k.tables.ready.capacity = n + 1) : k.Roomy where
  queue := hcapacity ▸ h.queue_lt
  wake now := by
    obtain ⟨_, _, hwake⟩ := hsound.wakeDue_complete hhoused now
    rw [hwake]
    exact nofun
  ticked s hticked := by
    cases hticked with
    | early => exact hcapacity ▸ h.queue_lt
    | @full user asks t _ ht =>
      have hsame : t.ready.capacity = n + 1 := (Tables.steady_tick ht).capacity.trans hcapacity
      exact hsame ▸ (h.tick hsound ht).queue_lt

/-! ## Every run -/

/-- A kernel whose containers are large enough for whatever is called next. -/
structure Reserved (hooks : Hooks C) (maxThreads : Nat) (k : Kernel C) : Prop where
  /-- No thread is in two containers. -/
  disjoint : k.tables.ready.ids.length + k.tables.sleepers.sleepers.length + k.tables.reclaim.length
    ≤ k.tables.threads.size
  live : k.tables.threads.size ≤ maxThreads + 1
  /-- Every call that comes back makes its transfers one after another, -/
  passes : ∀ c r k', Call.perform hooks c k = .ok r k' → ∃ l, k.core.Passage c l k'.core
  /-- and there is room for each of them before it is made. -/
  room : ∀ c l s, k.core.Passage c l s → k.tables.stock.Carries maxThreads l s.tables.stock
  /-- The queue itself makes sure of the same room. -/
  capacity : k.tables.ready.capacity = maxThreads + 1
  /-- Whether it comes back or not, no call finds the queue full. -/
  neverFull : hooks.NeverFull → ∀ c k', Call.perform hooks c k ≠ .error .readyQueueFull k'

variable {config : Config} {client : C.State} {k₀ k : Kernel C} {calls : List (Call C.Body)}

/-- What was reserved at the start is enough for every run that initialized the kernel. -/
theorem reserved_of_run (hq : hooks.QueryOnly) (h₀ : Kernel.ofConfig config client = .ok k₀)
    (hrun : Run hooks anyCall k₀ calls k) (hup : k.initialized = true)
    (hspawns : k.spawns < Word.top) : Reserved hooks config.maxThreads k := by
  have haccounted := hrun.accounted hq h₀
  have hbalanced := haccounted.balanced hspawns
  have hsound : k.tables.Sound := (haccounted.coherent.recorded hspawns hup).sound
  have hord := (hrun.reached hq (Kernel.reached_of_ofConfig h₀)).ordered
  have hcapacity : k.tables.ready.capacity = config.maxThreads + 1 := by
    refine hrun.keeps hq (Core.kept_capacity _) ?_
    obtain ⟨_, _, rfl⟩ := Kernel.eq_of_ofConfig h₀
    rfl
  have hpages : k.tables.pool.capacity = config.maxThreads :=
    hbalanced.capacity.trans (congrArg Config.maxThreads (hrun.config_eq hq h₀))
  have hfits : k.tables.Fits config.maxThreads :=
    hsound.fits hbalanced.housed hbalanced.ledger hpages (hrun.pool_counts hq h₀ hspawns).2.2
  have hthreads := hfits.threads
  exact {
    disjoint := by omega
    live := hfits.live
    passes := fun c r k' h => (Call.effect hq h).passage hup
    room := fun c l s h => h.carries hfits hsound hord
    capacity := hcapacity
    neverFull := fun hf => Call.notFull hq hf (hfits.roomy hsound hbalanced.housed hcapacity) }

/-- A kernel for the idle thread and three workers. -/
def smallKernel : Kernel plainClient where
  config := { timerHz := 100, timeSlice := 4, maxThreads := 4, pageSize := 16384 }
  client := ()
  clock := { frequency := 100 }
  tables := {
    ready := .empty 5
    pool := { pageSize := 16384, capacity := 4 } }

/-- All workers are there, the thread that booted sleeps, and the first worker has exited. -/
def crowdingCalls : List (Call Unit) :=
  [.init, .start, .create "first" 31 (), .create "second" 31 (), .create "third" 31 (),
    .sleepUntil 10, .exit]

/-- As many threads as there can be, all pages handed out, and an entry in each of the containers. -/
theorem reserved_of_run_crowded : ∃ k : Kernel plainClient,
    smallKernel.after .plain (fun _ _ => true) crowdingCalls = some k ∧ Reserved .plain 4 k ∧
    k.tables.threads.size = 5 ∧ k.tables.pool.free = [] ∧ k.tables.pool.allocated = 4 ∧
    k.tables.current = some ⟨4⟩ ∧ k.tables.ready.ids = [⟨5⟩] ∧
    k.tables.sleepers.sleepers = [⟨⟨1⟩, 10⟩] ∧ k.tables.reclaim = [⟨3⟩] ∧
    ∀ c k', Call.perform .plain c k ≠ .error .readyQueueFull k' := by
  have hchecks : (smallKernel.after .plain (fun _ _ => true) crowdingCalls).any (fun k =>
      k.initialized && decide (k.spawns < Word.top) &&
        decide (k.tables.threads.size = 5 ∧ k.tables.pool.free = [] ∧ k.tables.pool.allocated = 4 ∧
          k.tables.current = some ⟨4⟩ ∧ k.tables.ready.ids = [⟨5⟩] ∧
          k.tables.sleepers.sleepers = [⟨⟨1⟩, 10⟩] ∧ k.tables.reclaim = [⟨3⟩])) = true := by
    decide +kernel
  obtain ⟨k, hk, hchecks⟩ := (Option.any_eq_true _ _).mp hchecks
  simp only [Bool.and_eq_true, decide_eq_true_eq] at hchecks
  obtain ⟨⟨hup, hspawns⟩, hcontents⟩ := hchecks
  have h₀ : Kernel.ofConfig smallKernel.config () = .ok smallKernel := rfl
  have hreserved := reserved_of_run Hooks.queryOnly_plain h₀
    ((Run.of_after hk).mono fun _ _ _ => trivial) hup hspawns
  obtain ⟨hsize, hfree, hpages, hcurrent, hready, hasleep, hdead⟩ := hcontents
  exact ⟨k, hk, hreserved, hsize, hfree, hpages, hcurrent, hready, hasleep, hdead,
    hreserved.neverFull Hooks.neverFull_plain⟩

end RoundRobin
