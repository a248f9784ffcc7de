import RoundRobin.Proofs.BringUp
import RoundRobin.Proofs.Tables.Progress

/-!
# Making a thread, all of it or nothing

A `create` is refused for one of three reasons, looked for in a fixed order before anything is changed.
Otherwise it takes the next id, a page that is nobody's and the place at the tail of the ready queue,
and leaves everything else as it was.
-/

namespace RoundRobin

-- Powers here are those of natural numbers themselves, whatever other powers are in scope.
attribute [local instance (high)] instPowNat

variable {C : Client} {hooks : Hooks C}

/-! ## The stack of a new thread -/

/-- A page of whole lines starts and ends at an aligned address. -/
theorem Page.top_eq {p : Page} (hmin : minAlignment ≤ p.size) (haligned : minAlignment ∣ p.size) :
    p.top = p.base + p.size := by
  have hbase : minAlignment ∣ p.base := by
    unfold base
    rw [Nat.max_eq_right hmin]
    exact Nat.dvd_mul_left_of_dvd haligned _
  exact alignStack_eq_self (Nat.mod_eq_zero_of_dvd (Nat.dvd_add hbase haligned))

theorem Page.alignStack_top (p : Page) : alignStack p.top = p.top :=
  alignStack_eq_self (Nat.mul_mod_left _ _)

/-- Pages of a configured size consist of whole lines. -/
theorem Config.aligned_of_validate {config : Config} (h : config.validate = .ok ()) :
    Page.minAlignment ≤ config.pageSize ∧ Page.minAlignment ∣ config.pageSize := by
  obtain ⟨hpower, hmin⟩ := Config.pageSize_of_validate h
  obtain ⟨n, hn⟩ := Config.isPowerOfTwo_iff.mp hpower
  have hlarge : 2 ^ (12 : Nat) ≤ 2 ^ n := hn ▸ hmin
  have hexp : 12 ≤ n := (Nat.pow_le_pow_iff_right (by decide)).mp hlarge
  have hfour : 4 ≤ n := by omega
  refine ⟨Nat.le_trans (by decide) hmin, ?_⟩
  rw [hn]
  exact Nat.pow_dvd_pow 2 hfour

/-! ## The outcomes of a creation -/

namespace Kernel

open Act

variable {k : Kernel C} {name : String} {priority : Nat} {body : C.Body} {page : Page}
  {pool : PagePool}

/-- Why a thread is not created, if it is not. -/
def createRefusal (priority : Nat) (k : Kernel C) : Option SpawnError :=
  if Priority.highest < priority then some (.invalidPriority priority)
  else if k.initialized = false then some .notInitialized
  else if k.config.maxThreads ≤ k.tables.pool.inUse ∨ 2 ^ (63 : Nat) ≤ k.config.pageSize then
    some .outOfMemory
  else none

/-- The kernel with a new thread that is ready. -/
def created (name : String) (priority : Nat) (body : C.Body) (page : Page) (pool : PagePool)
    (k : Kernel C) : Kernel C :=
  { k.spawned name priority (.body body) page pool with
    tables := (k.spawned name priority (.body body) page pool).tables.readied k.nextId
    history := .log (.created name k.nextId priority) :: .updated .off ::
      (k.spawned name priority (.body body) page pool).history }

theorem create_of_priority (h : Priority.highest < priority) :
    create name priority body k = .ok (.error (.invalidPriority priority)) k := by
  unfold create
  rw [if_pos h]
  rfl

/-- A spawn that fails is all that was tried. -/
theorem create_of_error {e : SpawnError} (hpriority : priority ≤ Priority.highest)
    (h : spawn name priority (.body body) k = .ok (.error e) k) :
    create name priority body k = .ok (.error e) k := by
  unfold create
  rw [if_neg (Nat.not_lt_of_le hpriority)]
  exact bind_eq_ok_iff.mpr ⟨_, _, h, rfl⟩

theorem create_of_some (hpriority : priority ≤ Priority.highest) (hup : k.initialized = true)
    (hpool : k.tables.pool.allocate = some (page, pool))
    (hready : (k.spawned name priority (.body body) page pool).tables.unblock k.nextId
      = .ok ((k.spawned name priority (.body body) page pool).tables.readied k.nextId)) :
    create name priority body k = .ok (.ok k.nextId) (k.created name priority body page pool) := by
  unfold create
  rw [if_neg (Nat.not_lt_of_le hpriority)]
  refine bind_eq_ok_iff.mpr ⟨_, _, spawn_of_some hup hpool, ?_⟩
  dsimp only
  exact bind_eq_ok_iff.mpr ⟨(), _, masked_change_of_ok hready, rfl⟩

theorem createRefusal_eq_none_iff : k.createRefusal priority = none ↔
    priority ≤ Priority.highest ∧ k.initialized = true ∧
      k.tables.pool.inUse < k.config.maxThreads ∧ k.config.pageSize < 2 ^ (63 : Nat) := by
  unfold createRefusal
  by_cases hpriority : Priority.highest < priority
  · simp only [if_pos hpriority, Nat.not_le_of_lt hpriority, false_and, reduceCtorEq]
  · cases k.initialized <;> simp [hpriority, Nat.le_of_not_lt hpriority]

/-! ## A new thread -/

/-- What the creation of a thread changes, and what it leaves alone. -/
structure Created (name : String) (priority : Nat) (body : C.Body) (page : Page) (k k' : Kernel C) :
    Prop where
  /-- Ids are handed out in sequence, and nobody has this one. -/
  nextId : k.nextId.val = k.spawns + 2
  fresh : k.tables.threads.find? k.nextId = none
  /-- The thread is ready, has what the caller gave it, and starts at the top of its page. -/
  thread : k'.tables.threads.find? k.nextId = some
    { id := k.nextId
      name := .ofString name
      priority
      status := .ready
      link := .ready
      magic := Thread.magicNumber
      context := {
        entry := k.image.trampoline
        stackTop := page.base + page.size
        argument := k.image.scheduler }
      page := some page
      entry := some (.body body) }
  /-- Its page is clean, and nobody else's. -/
  canary : page.checkCanary = true
  size : page.size = k.config.pageSize
  unowned : ∀ i, ¬ k.tables.Owns i page.number
  notFree : page.number ∉ k'.tables.pool.free.map (·.number)
  others : ∀ i, i ≠ k.nextId → k'.tables.threads.find? i = k.tables.threads.find? i
  queue : k'.tables.ready = { k.tables.ready with ids := k.tables.ready.ids ++ [k.nextId] }
  /-- One page more is in use. -/
  pages : k'.tables.pool = { k.tables.pool with
    free := k.tables.pool.free.tail
    allocated := k'.tables.pool.allocated
    inUse := k.tables.pool.inUse + 1 }
  rest : k' = { k with
    nextId := k.nextId.next
    tables := { k.tables with
      threads := k'.tables.threads, ready := k'.tables.ready, pool := k'.tables.pool }
    history := .log (.created name k.nextId priority) :: .updated .off :: .updated .off ::
      .updated .off :: k.history }

end Kernel

variable {allowed : Kernel C → Call C.Body → Prop} {config : Config} {client : C.State}
  {k₀ k : Kernel C} {calls : List (Call C.Body)} {name : String} {priority : Nat} {body : C.Body}
  {page : Page} {pool : PagePool}

/-- A thread that was just made can become ready. -/
theorem Core.Accounted.unblock_spawned {entry : Entry C.Body} (h : k.core.Accounted)
    (hup : k.initialized = true) (hroom : k.spawns + 1 < Word.top)
    (hpool : k.tables.pool.allocate = some (page, pool)) :
    (k.spawned name priority entry page pool).tables.unblock k.nextId
      = .ok ((k.spawned name priority entry page pool).tables.readied k.nextId) := by
  have hhired : Core.Accounted (k.core.hired name priority entry page pool) :=
    Core.kept_accounted.hired h hup hpool
  exact Tables.unblock_complete (hhired.coherent.recorded hroom hup).sound
    (hhired.balanced hroom).housed ((ThreadTable.find?_insert _ _ _).trans (if_pos rfl)) rfl rfl

/-- Unless it has the id of the idle thread, it joins the queue. -/
theorem Kernel.tables_created (hidle : k.tables.idle ≠ some k.nextId) :
    (k.created name priority body page pool).tables = { k.tables with
      threads := (k.tables.threads.insert
        (freshThread k.image k.nextId name priority page (.body body))).modify k.nextId
          fun th => { th with status := .ready, link := .ready }
      ready := { k.tables.ready with ids := k.tables.ready.ids ++ [k.nextId] }
      pool } :=
  if_neg hidle

theorem Kernel.threads_created (hidle : k.tables.idle ≠ some k.nextId) (i : ThreadId) :
    (k.created name priority body page pool).tables.threads.find? i =
      if i = k.nextId then
        some { freshThread k.image k.nextId name priority page (.body body) with
          status := .ready, link := .ready }
      else k.tables.threads.find? i := by
  rw [tables_created hidle]
  exact ThreadTable.find?_modify_insert (f := fun th => { th with status := .ready, link := .ready })
    (fun _ => rfl) (freshThread k.image k.nextId name priority page (.body body)) i

/-- In a kernel of a run, the outcome of a creation is as it should be. -/
theorem Kernel.created_created (hcore : k.core.Accounted) (hpast : k.core.Past)
    (hconfig : k.config.validate = .ok ()) (hsize : k.tables.pool.pageSize = k.config.pageSize)
    (hup : k.initialized = true) (hroom : k.spawns + 1 < Word.top)
    (hpool : k.tables.pool.allocate = some (page, pool)) :
    Created name priority body page k (k.created name priority body page pool) := by
  have hrecorded := hcore.coherent.recorded (Nat.lt_of_succ_lt hroom) hup
  have hbalanced := hcore.balanced (Nat.lt_of_succ_lt hroom)
  obtain ⟨hless, hcanary, hofSize, hrest⟩ := PagePool.of_allocate hpool
  obtain ⟨hunowned, hout, _⟩ := hbalanced.ledger.allocated_page hbalanced.housed hpool
  have hpageSize : page.size = k.config.pageSize :=
    (hofSize hbalanced.housed.freeSize).trans hsize
  have hidle := hpast.idle_ne_nextId hrecorded hroom
  have htables : (k.created name priority body page pool).tables = _ := tables_created hidle
  have hstack : alignStack page.top = page.base + page.size := by
    obtain ⟨hmin, haligned⟩ := Config.aligned_of_validate hconfig
    rw [page.alignStack_top, Page.top_eq (hpageSize ▸ hmin) (hpageSize ▸ haligned)]
  have hfits : k.tables.pool.inUse < Word.top :=
    Nat.lt_trans hless hbalanced.housed.fits
  exact {
    nextId := hrecorded.nextId.trans (Word.saturate_eq_self hroom)
    fresh := hrecorded.fresh hroom
    thread := by
      rw [threads_created hidle, if_pos rfl, freshThread, Context.fresh, hstack]
      rfl
    canary := hcanary
    size := hpageSize
    unowned := hunowned
    notFree := by
      rw [htables]
      exact hout
    others := fun i hi => by rw [threads_created hidle, if_neg hi]
    queue := by rw [htables]
    pages := by
      rw [htables, ← Word.wrapSucc_eq hfits]
      exact hrest
    rest := by
      refine Eq.trans (b := { k with
        nextId := k.nextId.next
        tables := (k.created name priority body page pool).tables
        history := .log (.created name k.nextId priority) :: .updated .off :: .updated .off ::
          .updated .off :: k.history }) rfl ?_
      rw [htables] }

/-! ## Every run -/

theorem Run.create_of_refusal {e : SpawnError} (hq : hooks.QueryOnly)
    (h₀ : Kernel.ofConfig config client = .ok k₀) (hrun : Run hooks allowed k₀ calls k)
    (he : k.createRefusal priority = some e) :
    Kernel.create name priority body k = .ok (.error e) k := by
  unfold Kernel.createRefusal at he
  split at he
  · next hpriority =>
    cases he
    exact Kernel.create_of_priority hpriority
  · next hpriority =>
    rw [Nat.not_lt] at hpriority
    split at he
    · next hdown =>
      cases he
      exact Kernel.create_of_error hpriority (Kernel.spawn_of_down hdown)
    · next hup =>
      rw [Bool.not_eq_false] at hup
      split at he
      · next hnone =>
        cases he
        have hpool := (hrun.refuses hq h₀).mpr hnone
        exact Kernel.create_of_error hpriority (Kernel.spawn_of_none hup hpool)
      · cases he

theorem Run.create_of_no_refusal (hq : hooks.QueryOnly)
    (h₀ : Kernel.ofConfig config client = .ok k₀) (hrun : Run hooks allowed k₀ calls k)
    (hroom : k.spawns + 1 < Word.top) (hnone : k.createRefusal priority = none) :
    ∃ page k', Kernel.create name priority body k = .ok (.ok k.nextId) k' ∧
      Kernel.Created name priority body page k k' := by
  obtain ⟨hpriority, hup, hless, hsize⟩ := Kernel.createRefusal_eq_none_iff.mp hnone
  have haccounted := hrun.accounted hq h₀
  have hconfig : k.config.validate = .ok () := by
    rw [hrun.config_eq hq h₀]
    exact (Kernel.eq_of_ofConfig h₀).1
  cases hpool : k.tables.pool.allocate with
  | none =>
    have := (hrun.refuses hq h₀).mp hpool
    omega
  | some p =>
    exact ⟨p.1, _,
      Kernel.create_of_some hpriority hup hpool (haccounted.unblock_spawned hup hroom hpool),
      Kernel.created_created haccounted (hrun.past hq h₀) hconfig (hrun.stocked hq h₀).pageSize hup
        hroom hpool⟩

/-- What a creation does in the kernel `k` that calls led to from the new kernel `k₀`. -/
structure Creates (hooks : Hooks C) (k₀ : Kernel C) (calls : List (Call C.Body)) (k : Kernel C) :
    Prop where
  /-- The kernel is initialized when an init has succeeded. -/
  up : k.initialized = true ↔ Kernel.successes hooks (·.isInit) calls k₀ = 1
  /-- The pages in use are those of all threads in the table but the one that booted, -/
  inUse : k.initialized = true → k.tables.pool.inUse + 1 = k.tables.threads.size
  /-- also of a thread that waits to be reclaimed. -/
  pending : k.initialized = true → ∀ i ∈ k.tables.reclaim, ∃ th page,
    k.tables.threads.find? i = some th ∧ th.status = .dying ∧ th.page = some page
  /-- A creation that is refused leaves the kernel as it was, -/
  refused : ∀ name priority body e, k.createRefusal priority = some e →
    Kernel.create name priority body k = .ok (.error e) k
  /-- and any other one succeeds, as long as ids last. -/
  granted : ∀ name priority body, k.spawns + 1 < Word.top → k.createRefusal priority = none →
    ∃ page k', Kernel.create name priority body k = .ok (.ok k.nextId) k' ∧
      Kernel.Created name priority body page k k'

/-- In every state of every run a creation is refused for the reason that comes first and changes
nothing, or it makes just the thread that was asked for. -/
theorem creates_of_run (hq : hooks.QueryOnly) (h₀ : Kernel.ofConfig config client = .ok k₀)
    (hrun : Run hooks anyCall k₀ calls k) (hspawns : k.spawns < Word.top) :
    Creates hooks k₀ calls k := by
  have haccounted := hrun.accounted hq h₀
  have hbalanced := haccounted.balanced hspawns
  refine {
    up := ?_
    inUse := fun hup => ?_
    pending := fun hup i hi => ?_
    refused := fun name priority body e he => hrun.create_of_refusal hq h₀ he
    granted := fun name priority body hroom hnone => hrun.create_of_no_refusal hq h₀ hroom hnone }
  · rw [(hrun.successes_eq hq h₀).1]
    cases k.initialized <;> decide
  · obtain ⟨b, hb, _⟩ := hbalanced.rooted hup
    have hcount := hbalanced.housed.inUse
    rw [hb] at hcount
    exact hcount
  · have hsound := (haccounted.coherent.recorded hspawns hup).sound
    obtain ⟨th, page, hth, hpage⟩ := hsound.page_of_pending hbalanced.housed hi
    obtain ⟨th', hth', hlink⟩ := (hsound.mem_iff_link (l := .reclaim) nofun).mp hi
    rw [hth, Option.some.injEq] at hth'
    subst hth'
    exact ⟨th, page, hth, ((hsound.status_of_link hth).2.2 hlink).1, hpage⟩

/-- Two workers take both pages, and the first one exits. -/
def exitedCalls : List (Call Unit) :=
  [.init, .create "first" 31 (), .create "second" 31 (), .yieldNow, .exit]

/-- The page of a thread that waits to be reclaimed is still in use, so there is none for a third
worker. After the next decision it has that page. -/
theorem creates_of_run_exited : ∃ k k₁ : Kernel plainClient,
    twoPageKernel.after .plain (fun _ _ => true) exitedCalls = some k ∧
    twoPageKernel.after .plain (fun _ _ => true) (exitedCalls ++ [.yieldNow]) = some k₁ ∧
    Creates .plain twoPageKernel exitedCalls k ∧
    Creates .plain twoPageKernel (exitedCalls ++ [.yieldNow]) k₁ ∧
    k.tables.reclaim = [⟨2⟩] ∧
    Kernel.create "third" 63 () k = .ok (.error .outOfMemory) k ∧
    Kernel.create "third" 64 () k = .ok (.error (.invalidPriority 64)) k ∧
    ∃ page k', Kernel.create "third" 63 () k₁ = .ok (.ok ⟨4⟩) k' ∧
      Kernel.Created "third" 63 () page k₁ k' ∧ k₁.tables.pool.free.length = 1 := by
  have hchecks : (twoPageKernel.after .plain (fun _ _ => true) exitedCalls).any (fun k =>
      decide (k.spawns < Word.top) && decide (k.tables.reclaim = [⟨2⟩]) &&
        decide (k.createRefusal 63 = some .outOfMemory) &&
          decide (k.createRefusal 64 = some (.invalidPriority 64))) = true := by decide +kernel
  have hchecks₁ : (twoPageKernel.after .plain (fun _ _ => true) (exitedCalls ++ [.yieldNow])).any
      (fun k => decide (k.spawns + 1 < Word.top) && decide (k.createRefusal 63 = none) &&
        decide (k.nextId = ⟨4⟩) && decide (k.tables.pool.free.length = 1)) = true := by decide +kernel
  obtain ⟨k, hk, hchecks⟩ := (Option.any_eq_true _ _).mp hchecks
  obtain ⟨k₁, hk₁, hchecks₁⟩ := (Option.any_eq_true _ _).mp hchecks₁
  simp only [Bool.and_eq_true, decide_eq_true_eq] at hchecks hchecks₁
  obtain ⟨⟨⟨hspawns, hreclaim⟩, hfull⟩, hpriority⟩ := hchecks
  obtain ⟨⟨⟨hroom, hnone⟩, hnext⟩, hfree⟩ := hchecks₁
  have h₀ : Kernel.ofConfig twoPageKernel.config () = .ok twoPageKernel := rfl
  have hcreates := creates_of_run Hooks.queryOnly_plain h₀
    ((Run.of_after hk).mono fun _ _ _ => trivial) hspawns
  have hcreates₁ := creates_of_run Hooks.queryOnly_plain h₀
    ((Run.of_after hk₁).mono fun _ _ _ => trivial) (Nat.lt_of_succ_lt hroom)
  obtain ⟨page, k', hk', hcreated⟩ := hcreates₁.granted "third" 63 () hroom hnone
  exact ⟨k, k₁, hk, hk₁, hcreates, hcreates₁, hreclaim, hcreates.refused _ _ _ _ hfull,
    hcreates.refused _ _ _ _ hpriority, page, k', hnext ▸ hk', hcreated, hfree⟩

end RoundRobin
