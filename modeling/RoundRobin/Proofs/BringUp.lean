import RoundRobin.Proofs.Kernel.Spawning

/-!
# Bringing a kernel up, once

Whatever is called and in whatever order, one `init` succeeds and one `start`, and so there is one idle
thread. Each of the two either does all that it is for or leaves the kernel as it was: a `start` that
finds no page may be repeated, and succeeds as soon as a page has come back.
-/

namespace RoundRobin

-- Powers here are those of natural numbers themselves, whatever other powers are in scope.
attribute [local instance (high)] instPowNat

variable {C : Client} {hooks : Hooks C}

/-! ## The outcomes of the two calls -/

namespace Kernel

open Act

variable {k : Kernel C} {page : Page} {pool : PagePool}

theorem init_of_up (hoff : Maskable.level k.cpu = .off) (hup : k.initialized = true) :
    (init : Act C (Except BringUpError Unit)) k = .ok (.error .alreadyInitialized) k := by
  refine requireMasked_bind_eq_ok_iff.mpr ⟨hoff, ?_⟩
  rw [get_bind, if_pos hup]
  rfl

/-- The kernel after it was initialized: the running code is a thread. -/
def adopted (k : Kernel C) : Kernel C :=
  { k with
    initialized := true
    nextId := k.nextId.next
    tables := { k.tables.insertThread
        { Thread.fresh k.nextId bootName Priority.standard none with status := .running } with
      current := some k.nextId
      boot := some k.nextId }
    history := .log (.initialized k.config) :: .updated .off :: k.history }

theorem init_of_down (hoff : Maskable.level k.cpu = .off) (hdown : k.initialized = false) :
    (init : Act C (Except BringUpError Unit)) k = .ok (.ok ()) k.adopted := by
  refine requireMasked_bind_eq_ok_iff.mpr ⟨hoff, ?_⟩
  rw [get_bind, if_neg (by simp [hdown]), modify_bind, takeId, modifyGet_bind]
  refine bind_eq_ok_iff.mpr ⟨(), _, change_eq_ok_iff.mpr ⟨_, rfl, rfl⟩, ?_⟩
  rw [show Maskable.level k.cpu = .off from hoff]
  rfl

/-- Why a start fails, if it does. -/
def startRefusal (k : Kernel C) : Option Error :=
  if k.initialized = false then some (.bringUp .notInitialized)
  else if k.started then some (.bringUp .alreadyStarted)
  else if k.config.maxThreads ≤ k.tables.pool.inUse ∨ 2 ^ (63 : Nat) ≤ k.config.pageSize then
    some (.spawn .outOfMemory)
  else none

/-- The kernel after its start: the idle thread is made and appointed, and interrupts are on. -/
def withIdle (page : Page) (pool : PagePool) (k : Kernel C) : Kernel C :=
  { k.spawned idleName Priority.lowest .idleLoop page pool with
    started := true
    tables := { (k.spawned idleName Priority.lowest .idleLoop page pool).tables with
      idle := some k.nextId }
    cpu := Maskable.setLevel .on k.cpu
    history := .log (.started k.nextId) :: .updated .off ::
      (k.spawned idleName Priority.lowest .idleLoop page pool).history }

theorem start_of_down (hdown : k.initialized = false) :
    (start : Act C (Except Error Unit)) k = .ok (.error (.bringUp .notInitialized)) k := by
  unfold start
  rw [get_bind, if_pos hdown]
  rfl

theorem start_of_started (hup : k.initialized = true) (hstarted : k.started = true) :
    (start : Act C (Except Error Unit)) k = .ok (.error (.bringUp .alreadyStarted)) k := by
  unfold start
  rw [get_bind, if_neg (by simp [hup]), if_pos hstarted]
  rfl

/-- The mark is taken back when no page is left. -/
theorem start_of_none (hup : k.initialized = true) (hfirst : k.started = false)
    (hpool : k.tables.pool.allocate = none) :
    (start : Act C (Except Error Unit)) k = .ok (.error (.spawn .outOfMemory)) k := by
  unfold start
  rw [get_bind, if_neg (by simp [hup]), if_neg (by simp [hfirst]), setStarted_bind]
  refine bind_eq_ok_iff.mpr ⟨_, _, spawn_of_none hup hpool, ?_⟩
  dsimp only
  rw [setStarted_bind, ← hfirst]
  rfl

theorem start_of_some (hup : k.initialized = true) (hfirst : k.started = false)
    (hpool : k.tables.pool.allocate = some (page, pool)) :
    (start : Act C (Except Error Unit)) k = .ok (.ok ()) (k.withIdle page pool) := by
  unfold start
  rw [get_bind, if_neg (by simp [hup]), if_neg (by simp [hfirst]), setStarted_bind]
  refine bind_eq_ok_iff.mpr ⟨_, _, spawn_of_some hup hpool, ?_⟩
  exact bind_eq_ok_iff.mpr ⟨(), _, masked_change_of_ok rfl, rfl⟩

theorem startRefusal_eq_none_iff : k.startRefusal = none ↔ k.initialized = true ∧ k.started = false ∧
    k.tables.pool.inUse < k.config.maxThreads ∧ k.config.pageSize < 2 ^ (63 : Nat) := by
  unfold startRefusal
  cases k.initialized <;> cases k.started <;> simp

end Kernel

/-! ## What no call changes but the two -/

/-- Whether a call initializes the kernel. -/
def Call.isInit {β : Type} : Call β → Bool
  | init => true
  | _ => false

/-- Whether a call starts the kernel. -/
def Call.isStart {β : Type} : Call β → Bool
  | start => true
  | _ => false

namespace Core

variable {s s' : Core C} {c : Call C.Body}

theorem Ticked.flags (h : Ticked s s') :
    s'.initialized = s.initialized ∧ s'.started = s.started := by
  cases h <;> exact ⟨rfl, rfl⟩

theorem Effect.initialized (h : Effect s c s') (hc : c.isInit = false) :
    s'.initialized = s.initialized := by
  cases h with
  | adopt => cases hc
  | timerInterrupt _ _ ht => exact ht.flags.1
  | tick _ _ ht => exact ht.flags.1
  | preempt _ _ ht => exact ht.flags.1
  | _ => rfl

theorem Effect.started (h : Effect s c s') (hc : c.isStart = false) : s'.started = s.started := by
  cases h with
  | start => cases hc
  | timerInterrupt _ _ ht => exact ht.flags.2
  | tick _ _ ht => exact ht.flags.2
  | preempt _ _ ht => exact ht.flags.2
  | _ => rfl

/-- The kernel is started when it has an idle thread, and nobody else is to run the idle loop. -/
structure Staffed (s : Core C) : Prop where
  idle : s.tables.idle.isSome = s.started
  only : ∀ i th, s.tables.threads.find? i = some th → th.entry = some .idleLoop →
    s.tables.idle = some i

theorem Staffed.of_survive (h : Staffed s) (hsurvive : s.tables.Survive s'.tables)
    (hidle : s'.tables.idle = s.tables.idle) (hstarted : s'.started = s.started) : Staffed s' := by
  refine ⟨by rw [hidle, hstarted, h.idle], fun i th hth hentry => ?_⟩
  obtain ⟨th₀, hth₀, hsame⟩ := hsurvive i th hth
  rw [hidle]
  exact h.only i th₀ hth₀ (hsame.entry.symm.trans hentry)

/-- A new thread that has something else to run. -/
theorem Staffed.inserted {th : Thread C.Body} (h : Staffed s) (hth : th.entry ≠ some .idleLoop)
    (hthreads : s'.tables.threads = s.tables.threads.insert th)
    (hidle : s'.tables.idle = s.tables.idle) (hstarted : s'.started = s.started) : Staffed s' := by
  refine ⟨by rw [hidle, hstarted, h.idle], fun i th' hth' hentry => ?_⟩
  rw [hthreads, ThreadTable.find?_insert] at hth'
  split at hth'
  · exact absurd ((Option.some.inj hth') ▸ hentry) hth
  · rw [hidle]
    exact h.only i th' hth' hentry

theorem Staffed.ticked (h : Staffed s) (ht : Ticked s s') : Staffed s' := by
  cases ht with
  | early => exact h.of_survive (.refl _) rfl rfl
  | full _ ht =>
    exact h.of_survive (Tables.steady_tick ht).survive (by rw [Tables.rest_of_tick ht]; rfl) rfl

theorem Staffed.effect (h : Staffed s) (he : Effect s c s') : Staffed s' := by
  cases he with
  | nothing => exact h
  | advance => exact h.of_survive (.refl _) rfl rfl
  | adopt =>
    refine h.inserted ?_ rfl rfl rfl
    exact nofun
  | @start page pool _ hfirst =>
    -- nobody was appointed before, so nobody else is to run the idle loop
    have hnone : s.tables.idle = none := by
      rw [← Option.not_isSome_iff_eq_none, h.idle, hfirst]
      exact nofun
    refine ⟨rfl, fun i th hth hentry => ?_⟩
    have hth : (s.tables.threads.insert _).find? i = some th := hth
    rw [ThreadTable.find?_insert] at hth
    split at hth
    · next hi => exact congrArg some hi.symm
    · have hidle := h.only i th hth hentry
      rw [hnone] at hidle
      cases hidle
  | @create name priority body page pool t _ _ _ hunblock =>
    have hhired : Staffed (s.hired name priority (.body body) page pool) := by
      refine h.inserted ?_ rfl rfl rfl
      exact nofun
    exact hhired.of_survive (Tables.steady_unblock hunblock).survive
      (by rw [Tables.rest_of_unblock hunblock]) rfl
  | unblock hunblock =>
    exact h.of_survive (Tables.steady_unblock hunblock).survive
      (by rw [Tables.rest_of_unblock hunblock]) rfl
  | leave _ hleave =>
    have hparting := Tables.parting_of_leave hleave
    exact h.of_survive hparting.survive hparting.idle rfl
  | @prioritize priority =>
    exact h.of_survive (Tables.survive_modifyThread
      (f := fun th => { th with priority := Priority.clamp priority })
      fun _ => ⟨rfl, rfl, rfl, rfl, rfl, rfl⟩) rfl rfl
  | timerInterrupt _ _ ht => exact h.ticked ht
  | tick _ _ ht => exact h.ticked ht
  | preempt _ _ ht _ hleave =>
    have hparting := Tables.parting_of_leave hleave
    exact (h.ticked ht).of_survive hparting.survive hparting.idle rfl

/-- The idle thread is appointed for good. -/
theorem kept_idle (i : ThreadId) :
    Kept (fun s : Core C => s.started = true ∧ s.tables.idle = some i) where
  later h _ := h
  adopted h _ := h
  hired h _ _ := h
  appointed h _ hfirst _ := absurd (h.1.symm.trans hfirst) nofun
  unblocked h ht := ⟨h.1, by rw [Tables.rest_of_unblock ht]; exact h.2⟩
  left h _ ht := ⟨h.1, (Tables.parting_of_leave ht).idle.trans h.2⟩
  prioritized h _ := h
  ticked h _ _ ht := ⟨h.1, by rw [Tables.rest_of_tick ht]; exact h.2⟩
  preempted h ht := ⟨h.1, (Tables.parting_of_leave ht).idle.trans h.2⟩

end Core

/-! ## Counting successes -/

/-- Whether a reply says that a kernel was brought up. -/
def Reply.isSuccess : Reply → Bool
  | broughtUp r => r.toBool
  | _ => false

/-- How many of the calls of a kind have brought the kernel up. -/
def Kernel.successes (hooks : Hooks C) (kind : Call C.Body → Bool) :
    List (Call C.Body) → Kernel C → Nat
  | [], _ => 0
  | c :: rest, k =>
    match c.perform hooks k with
    | .ok r k' => (kind c && r.isSuccess).toNat + successes hooks kind rest k'
    | .error _ _ => 0

variable {allowed : Kernel C → Call C.Body → Prop} {config : Config} {client : C.State}
  {k₀ k k' k₁ k₂ : Kernel C} {calls : List (Call C.Body)} {c : Call C.Body} {r : Reply}

theorem Run.successes_snoc {kind : Call C.Body → Bool} (hrun : Run hooks allowed k calls k₁)
    (hstep : c.perform hooks k₁ = .ok r k₂) : Kernel.successes hooks kind (calls ++ [c]) k
      = Kernel.successes hooks kind calls k + (kind c && r.isSuccess).toNat := by
  induction calls generalizing k with
  | nil =>
    rw [hrun.eq_of_nil] at hstep
    simp [Kernel.successes, hstep]
  | cons e rest ih =>
    obtain ⟨r', k', he, hrest⟩ := hrun.uncons
    simp only [List.cons_append, Kernel.successes, he]
    rw [ih hrest, Nat.add_assoc]

/-- An init that comes back has succeeded if it is the first one, and the kernel is then initialized. -/
theorem Kernel.initialized_of_perform (hq : hooks.QueryOnly) (h : c.perform hooks k = .ok r k') :
    k'.initialized.toNat = k.initialized.toNat + (c.isInit && r.isSuccess).toNat := by
  cases hc : c.isInit with
  | false =>
    have hsame : k'.initialized = k.initialized := (Call.effect hq h).initialized hc
    rw [hsame]
    rfl
  | true =>
    have hinit : c = .init := by
      cases c <;> first | rfl | cases hc
    subst hinit
    obtain ⟨r', k₁, hinit, h⟩ := Act.bind_eq_ok_iff.mp h
    obtain ⟨hr, hk⟩ := Act.pure_eq_ok_iff.mp h
    have hoff := (Act.requireMasked_bind_eq_ok_iff.mp hinit).1
    cases hup : k.initialized with
    | true =>
      rw [Kernel.init_of_up hoff hup] at hinit
      cases hinit
      rw [hk, hr, hup]
      rfl
    | false =>
      rw [Kernel.init_of_down hoff hup] at hinit
      cases hinit
      rw [hk, hr]
      rfl

/-- A start that comes back has failed, or it was the first one to succeed. -/
theorem Kernel.started_of_perform (hq : hooks.QueryOnly) (h : c.perform hooks k = .ok r k') :
    k'.started.toNat = k.started.toNat + (c.isStart && r.isSuccess).toNat := by
  cases hc : c.isStart with
  | false =>
    have hsame : k'.started = k.started := (Call.effect hq h).started hc
    rw [hsame]
    rfl
  | true =>
    have hstart : c = .start := by
      cases c <;> first | rfl | cases hc
    subst hstart
    obtain ⟨r', k₁, hstart, h⟩ := Act.bind_eq_ok_iff.mp h
    obtain ⟨hr, hk⟩ := Act.pure_eq_ok_iff.mp h
    cases hup : k.initialized with
    | false =>
      rw [Kernel.start_of_down hup] at hstart
      cases hstart
      rw [hk, hr]
      rfl
    | true =>
      cases hfirst : k.started with
      | true =>
        rw [Kernel.start_of_started hup hfirst] at hstart
        cases hstart
        rw [hk, hr, hfirst]
        rfl
      | false =>
        cases hpool : k.tables.pool.allocate with
        | none =>
          rw [Kernel.start_of_none hup hfirst hpool] at hstart
          cases hstart
          rw [hk, hr, hfirst]
          rfl
        | some p =>
          rw [Kernel.start_of_some hup hfirst hpool] at hstart
          cases hstart
          rw [hk, hr]
          rfl

/-! ## Every run -/

theorem Run.staffed (hq : hooks.QueryOnly) (h₀ : Kernel.ofConfig config client = .ok k₀)
    (hrun : Run hooks allowed k₀ calls k) : k.core.Staffed := by
  induction hrun with
  | nil =>
    obtain ⟨_, _, rfl⟩ := Kernel.eq_of_ofConfig h₀
    exact ⟨rfl, nofun⟩
  | snoc _ _ step ih => exact ih.effect (Call.effect hq step)

/-- The flags count what succeeded. -/
theorem Run.successes_eq (hq : hooks.QueryOnly) (h₀ : Kernel.ofConfig config client = .ok k₀)
    (hrun : Run hooks allowed k₀ calls k) :
    Kernel.successes hooks (·.isInit) calls k₀ = k.initialized.toNat ∧
      Kernel.successes hooks (·.isStart) calls k₀ = k.started.toNat := by
  induction hrun with
  | nil =>
    obtain ⟨_, _, rfl⟩ := Kernel.eq_of_ofConfig h₀
    exact ⟨rfl, rfl⟩
  | snoc run _ step ih =>
    rw [run.successes_snoc step, run.successes_snoc step, ih.1, ih.2]
    exact ⟨(Kernel.initialized_of_perform hq step).symm, (Kernel.started_of_perform hq step).symm⟩

/-- What a start that succeeds in `k` leaves behind. -/
structure Kernel.Started (k k' : Kernel C) : Prop where
  idle : k'.tables.idle = some k.nextId
  thread : ∃ th, k'.tables.threads.find? k.nextId = some th ∧ th.status = .blocked ∧
    th.link = .unlinked ∧ th.entry = some .idleLoop
  /-- Ids are not told apart any more once all of them were handed out. -/
  unqueued : k.spawns + 1 < Word.top → k.nextId ∉ k'.tables.ready.ids
  current : k'.tables.current = k.tables.current
  others : ∀ i, i ≠ k.nextId → k'.tables.threads.find? i = k.tables.threads.find? i
  level : Maskable.level k'.cpu = .on

theorem Kernel.started_withIdle {page : Page} {pool : PagePool} (hcoherent : k.core.Coherent)
    (hup : k.initialized = true) : k.Started (k.withIdle page pool) where
  idle := rfl
  thread := ⟨_, (ThreadTable.find?_insert _ _ _).trans (if_pos rfl), rfl, rfl, rfl⟩
  unqueued hroom hqueued := by
    have hrecorded := hcoherent.recorded (Nat.lt_of_succ_lt hroom) hup
    -- whoever is queued lives, and nobody lives under the next id
    obtain ⟨th, hth, _⟩ := (hrecorded.sound.mem_iff_link (l := .ready) nofun).mp hqueued
    exact absurd (hth.symm.trans (hrecorded.fresh hroom)) nofun
  current := rfl
  others i hi := (ThreadTable.find?_insert _ _ _).trans (if_neg hi)
  level := FlagCpu.level_setLevel .on k.cpu

/-- How the kernel `k` was brought up by the calls that led to it from the new kernel `k₀`, and what
bringing it up does next. -/
structure BroughtUp (hooks : Hooks C) (k₀ : Kernel C) (calls : List (Call C.Body)) (k : Kernel C) :
    Prop where
  /-- One init at most has succeeded, and one start. -/
  inits : Kernel.successes hooks (·.isInit) calls k₀ = k.initialized.toNat
  starts : Kernel.successes hooks (·.isStart) calls k₀ = k.started.toNat
  /-- There is an idle thread from the start on, always the same one, and no other thread is to run the
  idle loop. -/
  idle : k.tables.idle.isSome = k.started
  idle_stays : ∀ earlier later k₁ i, calls = earlier ++ later → Run hooks anyCall k₀ earlier k₁ →
    k₁.tables.idle = some i → k.tables.idle = some i
  only_idle : ∀ i th, k.tables.threads.find? i = some th → th.entry = some .idleLoop →
    k.tables.idle = some i
  /-- An init with interrupts masked fails and changes nothing, or it is the first one. -/
  init_again : Maskable.level k.cpu = .off → k.initialized = true →
    (Kernel.init : Act C _) k = .ok (.error .alreadyInitialized) k
  init_first : Maskable.level k.cpu = .off → k.initialized = false →
    ∃ k', (Kernel.init : Act C _) k = .ok (.ok ()) k'
  /-- A start that fails changes nothing, -/
  start_fails : ∀ e, k.startRefusal = some e → (Kernel.start : Act C _) k = .ok (.error e) k
  /-- and any other one succeeds. -/
  start_succeeds : k.startRefusal = none →
    ∃ k', (Kernel.start : Act C _) k = .ok (.ok ()) k' ∧ k.Started k'
  /-- Whether it does depends on the pages in use now, and not on starts that failed before. -/
  start_iff : (∃ k', (Kernel.start : Act C _) k = .ok (.ok ()) k') ↔
    Kernel.successes hooks (·.isInit) calls k₀ = 1 ∧
      Kernel.successes hooks (·.isStart) calls k₀ = 0 ∧
      k.tables.pool.inUse < k₀.config.maxThreads ∧ k₀.config.pageSize < 2 ^ (63 : Nat)

/-- A pool that refuses a page just when the refusal says so. -/
theorem Run.refuses (hq : hooks.QueryOnly) (h₀ : Kernel.ofConfig config client = .ok k₀)
    (hrun : Run hooks allowed k₀ calls k) : k.tables.pool.allocate = none ↔
      k.config.maxThreads ≤ k.tables.pool.inUse ∨ 2 ^ (63 : Nat) ≤ k.config.pageSize := by
  rw [hrun.config_eq hq h₀]
  exact hrun.allocate_eq_none_iff hq h₀

theorem Run.start_of_refusal {e : Error} (hq : hooks.QueryOnly)
    (h₀ : Kernel.ofConfig config client = .ok k₀) (hrun : Run hooks allowed k₀ calls k)
    (he : k.startRefusal = some e) : (Kernel.start : Act C _) k = .ok (.error e) k := by
  unfold Kernel.startRefusal at he
  split at he
  · next hdown =>
    cases he
    exact Kernel.start_of_down hdown
  · next hup =>
    rw [Bool.not_eq_false] at hup
    split at he
    · next hstarted =>
      cases he
      exact Kernel.start_of_started hup hstarted
    · next hfirst =>
      split at he
      · next hnone =>
        cases he
        have hpool := (hrun.refuses hq h₀).mpr hnone
        exact Kernel.start_of_none hup ((Bool.not_eq_true _).mp hfirst) hpool
      · cases he

theorem Run.start_of_no_refusal (hq : hooks.QueryOnly)
    (h₀ : Kernel.ofConfig config client = .ok k₀) (hrun : Run hooks allowed k₀ calls k)
    (hnone : k.startRefusal = none) :
    ∃ k', (Kernel.start : Act C _) k = .ok (.ok ()) k' ∧ k.Started k' := by
  obtain ⟨hup, hfirst, hroom, hsize⟩ := Kernel.startRefusal_eq_none_iff.mp hnone
  cases hpool : k.tables.pool.allocate with
  | none =>
    have := (hrun.refuses hq h₀).mp hpool
    omega
  | some p =>
    exact ⟨_, Kernel.start_of_some hup hfirst hpool,
      Kernel.started_withIdle (hrun.coherent hq h₀) hup⟩

/-- Whether a start succeeds is for the refusal to say. -/
theorem Run.start_succeeds_iff (hq : hooks.QueryOnly)
    (h₀ : Kernel.ofConfig config client = .ok k₀) (hrun : Run hooks allowed k₀ calls k) :
    (∃ k', (Kernel.start : Act C _) k = .ok (.ok ()) k') ↔ k.startRefusal = none := by
  constructor
  · rintro ⟨k', hk'⟩
    cases he : k.startRefusal with
    | none => rfl
    | some e =>
      rw [hrun.start_of_refusal hq h₀ he] at hk'
      cases hk'
  · intro hnone
    obtain ⟨k', hk', _⟩ := hrun.start_of_no_refusal hq h₀ hnone
    exact ⟨k', hk'⟩

theorem Run.idle_stays {later : List (Call C.Body)} {i : ThreadId} (hq : hooks.QueryOnly)
    (h₀ : Kernel.ofConfig config client = .ok k₀) (hrun : Run hooks allowed k₀ (calls ++ later) k)
    (hearlier : Run hooks anyCall k₀ calls k₁) (hi : k₁.tables.idle = some i) :
    k.tables.idle = some i := by
  have hstarted : k₁.started = true :=
    (hearlier.staffed hq h₀).idle.symm.trans (Option.isSome_iff_exists.mpr ⟨i, hi⟩)
  exact ((hrun.rest hearlier).keeps hq (Core.kept_idle i) ⟨hstarted, hi⟩).2

/-- A kernel is brought up once, and each of the two calls does all of it or nothing, in every run. -/
theorem brought_up_once (hq : hooks.QueryOnly) (h₀ : Kernel.ofConfig config client = .ok k₀)
    (hrun : Run hooks anyCall k₀ calls k) : BroughtUp hooks k₀ calls k := by
  have hstaffed := hrun.staffed hq h₀
  obtain ⟨hinits, hstarts⟩ := hrun.successes_eq hq h₀
  have hconfig : k.config = k₀.config :=
    (hrun.config_eq hq h₀).trans (Kernel.config_of_ofConfig h₀).symm
  refine {
    inits := hinits
    starts := hstarts
    idle := hstaffed.idle
    idle_stays := fun earlier later k₁ i hcalls hearlier hi => ?_
    only_idle := hstaffed.only
    init_again := Kernel.init_of_up
    init_first := fun hoff hdown => ⟨_, Kernel.init_of_down hoff hdown⟩
    start_fails := fun e he => hrun.start_of_refusal hq h₀ he
    start_succeeds := hrun.start_of_no_refusal hq h₀
    start_iff := ?_ }
  · subst hcalls
    exact hrun.idle_stays hq h₀ hearlier hi
  · rw [hrun.start_succeeds_iff hq h₀, Kernel.startRefusal_eq_none_iff, hinits, hstarts, ← hconfig]
    cases k.initialized <;> cases k.started <;> simp

/-- A kernel with pages for two threads, the idle thread included. -/
def twoPageKernel : Kernel plainClient where
  config := { timerHz := 100, timeSlice := 4, maxThreads := 2, pageSize := 16384 }
  client := ()
  clock := { frequency := 100 }
  tables := {
    ready := .empty 3
    pool := { pageSize := 16384, capacity := 2 } }

/-- Two workers take both pages, a start fails, and the first worker exits. -/
def lateStartCalls : List (Call Unit) :=
  [.init, .create "first" 31 (), .create "second" 31 (), .start, .yieldNow, .exit, .yieldNow]

/-- The start that failed left no mark: with the first worker's page back the next one succeeds. -/
theorem brought_up_once_late_start : ∃ k : Kernel plainClient,
    twoPageKernel.after .plain (fun _ _ => true) lateStartCalls = some k ∧
    BroughtUp .plain twoPageKernel lateStartCalls k ∧
    Kernel.successes .plain (·.isStart) lateStartCalls twoPageKernel = 0 ∧
    k.tables.pool.inUse = 1 ∧ k.tables.pool.released = 1 ∧
    ∃ k', (Kernel.start : Act plainClient _) k = .ok (.ok ()) k' ∧ k.Started k' ∧
      k'.tables.idle = some ⟨4⟩ ∧ ⟨4⟩ ∉ k'.tables.ready.ids := by
  have hchecks : (twoPageKernel.after .plain (fun _ _ => true) lateStartCalls).any (fun k =>
      decide (k.startRefusal = none) && decide (k.spawns + 1 < Word.top) &&
        decide (k.nextId = ⟨4⟩) && decide (k.started = false ∧ k.tables.pool.inUse = 1 ∧
          k.tables.pool.released = 1)) = true := by decide +kernel
  obtain ⟨k, hk, hchecks⟩ := (Option.any_eq_true _ _).mp hchecks
  simp only [Bool.and_eq_true, decide_eq_true_eq] at hchecks
  obtain ⟨⟨⟨hnone, hspawns⟩, hnext⟩, hfirst, hinUse, hreleased⟩ := hchecks
  have h₀ : Kernel.ofConfig twoPageKernel.config () = .ok twoPageKernel := rfl
  have hbrought := brought_up_once Hooks.queryOnly_plain h₀
    ((Run.of_after hk).mono fun _ _ _ => trivial)
  obtain ⟨k', hk', hstarted⟩ := hbrought.start_succeeds hnone
  refine ⟨k, hk, hbrought, ?_, hinUse, hreleased, k', hk', hstarted, ?_, ?_⟩
  · rw [hbrought.starts, hfirst]
    rfl
  · rw [hstarted.idle, hnext]
  · exact hnext ▸ hstarted.unqueued hspawns

end RoundRobin
