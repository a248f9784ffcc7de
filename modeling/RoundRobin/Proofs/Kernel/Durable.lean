import RoundRobin.Proofs.BringUp
import RoundRobin.Proofs.Kernel.Trampoline

/-!
# What lasts, whatever the process layer does

A process layer may do more than ask: its hooks may call the kernel again. Then the effects of calls are
of no use, and what remains is how a kernel changes between two calls of the process layer. There are
three such changes: no thread is made and none starts (`Kin`), the running code is adopted, or a thread
is hired. A property is `Durable` when it lasts through each of them, and then it lasts through every
call, as long as the hooks keep it too.
-/

namespace RoundRobin

variable {C : Client} {α β : Type}

/-! ## Starts -/

/-- The level at which a thread started its body, if the event is that. -/
def Event.startOf {ν : Type} (t : ThreadId) : Event ν → Option Level
  | entered id l => if id = t then some l else none
  | _ => none

/-- Whether some thread started its body. -/
def Event.isStart {ν : Type} : Event ν → Bool
  | entered _ _ => true
  | _ => false

theorem Event.startOf_of_not_isStart {ν : Type} {e : Event ν} (h : e.isStart = false) (t : ThreadId) :
    e.startOf t = none := by
  cases e with
  | entered => cases h
  | _ => rfl

namespace Kernel

/-- The levels at which a thread started its body, the last time first. -/
def starts (t : ThreadId) (k : Kernel C) : List Level := k.history.filterMap (·.startOf t)

/-! ## Changes -/

/-- No thread was made and none started its body. Those that are still there are what they were. -/
structure Kin (k k' : Kernel C) : Prop where
  survive : k.tables.Survive k'.tables
  nextId : k'.nextId = k.nextId
  initialized : k'.initialized = k.initialized
  frequency : k'.clock.frequency = k.clock.frequency
  spawns : k'.spawns = k.spawns
  starts : ∀ t, k'.starts t = k.starts t

/-- A thread was made: it has the next id, and the rest are kin. -/
structure Hires (entry : Entry C.Body) (k k' : Kernel C) : Prop where
  up : k.initialized = true
  thread : ∃ name priority page pool, (({ k.tables with pool } : Tables C.Body).insertThread
    (freshThread k.image k.nextId name priority page entry)).Survive k'.tables
  nextId : k'.nextId = k.nextId.next
  initialized : k'.initialized = true
  frequency : k'.clock.frequency = k.clock.frequency
  spawns : k'.spawns = k.spawns + 1
  starts : ∀ t, k'.starts t = k.starts t

/-- A property of kernels that every change keeps. -/
structure Durable (P : Kernel C → Prop) : Prop where
  kin : ∀ {k k' : Kernel C}, k.Kin k' → P k → P k'
  adopted : ∀ {k : Kernel C}, k.initialized = false → P k → P k.adopted
  hired : ∀ {entry : Entry C.Body} {k k' : Kernel C}, k.Hires entry k' → P k → P k'

variable {k k' k₁ : Kernel C}

theorem Kin.refl (k : Kernel C) : k.Kin k := ⟨.refl _, rfl, rfl, rfl, rfl, fun _ => rfl⟩

theorem Kin.trans (h : k.Kin k₁) (h' : k₁.Kin k') : k.Kin k' :=
  ⟨h.survive.trans h'.survive, h'.nextId.trans h.nextId, h'.initialized.trans h.initialized,
    h'.frequency.trans h.frequency, h'.spawns.trans h.spawns,
    fun t => (h'.starts t).trans (h.starts t)⟩

/-- Whoever is there after a thread was made is that thread, or was there before. -/
theorem Hires.of_find? {entry : Entry C.Body} {t : ThreadId} {th' : Thread C.Body}
    (h : k.Hires entry k') (hth' : k'.tables.threads.find? t = some th') :
    (t = k.nextId ∧ th'.entry = some entry) ∨
      ∃ th, k.tables.threads.find? t = some th ∧ th.Same th' := by
  obtain ⟨_, _, _, _, hsurvive⟩ := h.thread
  obtain ⟨th, hth, hsame⟩ := hsurvive t th' hth'
  replace hth := (ThreadTable.find?_insert _ _ _).symm.trans hth
  split at hth
  · next hid =>
    cases hth
    exact .inl ⟨hid, hsame.entry⟩
  · exact .inr ⟨th, hth, hsame⟩

/-- An event that is about neither a new thread nor a start. -/
theorem kin_record {e : Event C.Note} (hspawn : e.isSpawn = false) (hstart : e.isStart = false)
    (k : Kernel C) : k.Kin { k with history := e :: k.history } := by
  refine ⟨.refl _, rfl, rfl, rfl, ?_, fun t => ?_⟩
  · simp [spawns, hspawn]
  · simp [starts, Event.startOf_of_not_isStart hstart]

/-- A critical section that makes no thread. -/
theorem kin_updated {t : Tables C.Body} (l : Level) (h : k.tables.Survive t) :
    k.Kin { k with tables := t, history := .updated l :: k.history } :=
  (kin_record (e := .updated l) rfl rfl k).trans ⟨h, rfl, rfl, rfl, rfl, fun _ => rfl⟩

end Kernel

/-! ## Operations that make no thread -/

namespace Act

open Kernel

variable {act : Act C α} {f : α → Act C β}

/-- The operation makes no thread and starts none. -/
abbrev Mild (act : Act C α) : Prop := act.Within Kernel.Kin

theorem Mild.bind (h : act.Mild) (hf : ∀ a, (f a).Mild) : (act >>= f).Mild :=
  Within.bind .trans h hf

theorem mild_of_looks (h : ∀ k a k', act k = .ok a k' → k' = k) : act.Mild :=
  fun k a k' hact => h k a k' hact ▸ .refl k

theorem mild_pure (a : α) : (pure a : Act C α).Mild := within_pure .refl a

theorem mild_get : (get : Act C (Kernel C)).Mild := mild_of_looks fun _ _ _ h => by cases h; rfl

theorem mild_level : (level : Act C Level).Mild := within_level .refl

theorem mild_orFault (r : Except Fault α) : (orFault r : Act C α).Mild :=
  mild_of_looks fun _ _ _ h => (orFault_eq_ok_iff.mp h).2.symm

theorem mild_inspect (g : Tables C.Body → Except Fault α) : (inspect g).Mild :=
  mild_of_looks fun _ _ _ h => (inspect_eq_ok_iff.mp h).2.symm

theorem mild_requireMasked (e : Fault) : (requireMasked e : Act C Unit).Mild :=
  mild_of_looks fun _ _ _ h => (requireMasked_eq_ok_iff.mp h).2.symm

theorem mild_requireUnmasked (e : Fault) : (requireUnmasked e : Act C Unit).Mild :=
  mild_of_looks fun _ _ _ h => (requireUnmasked_eq_ok_iff.mp h).2.symm

theorem mild_requireThreadContext (e : Fault) : (requireThreadContext e : Act C Unit).Mild :=
  mild_of_looks fun _ _ _ h => (requireThreadContext_eq_ok_iff.mp h).2.symm

theorem mild_modify {g : Kernel C → Kernel C} (h : ∀ k, Kin k (g k)) :
    (modify g : Act C Unit).Mild := by
  intro k u k' hact
  rw [modify_eq_ok_iff.mp hact]
  exact h k

theorem mild_record {e : Event C.Note} (hspawn : e.isSpawn = false) (hstart : e.isStart = false) :
    (record e).Mild :=
  mild_modify (kin_record hspawn hstart)

theorem mild_setLevel (l : Level) : (setLevel l : Act C Unit).Mild :=
  mild_modify fun _ => ⟨.refl _, rfl, rfl, rfl, rfl, fun _ => rfl⟩

theorem mild_update {g : Tables C.Body → Except Fault (α × Tables C.Body)}
    (h : ∀ t a t', g t = .ok (a, t') → t.Survive t') : (update g).Mild := by
  intro k a k' hact
  obtain ⟨t, ht, rfl⟩ := update_eq_ok_iff.mp hact
  exact kin_updated _ (h _ _ _ ht)

theorem mild_change {g : Tables C.Body → Except Fault (Tables C.Body)}
    (h : ∀ t t', g t = .ok t' → t.Survive t') : (change g).Mild :=
  mild_update fun t _ _ ht => h t _ (eq_ok_of_map_unit ht)

theorem mild_switchContext : (switchContext : Act C Unit).Mild := by
  intro k u k' hact
  obtain ⟨_, _, rfl⟩ := switchContext_eq_ok_iff.mp hact
  exact (kin_record (e := .switched .off) rfl rfl k).trans ⟨.refl _, rfl, rfl, rfl, rfl, fun _ => rfl⟩

/-! ## Operations that keep a property -/

variable {P : Kernel C → Prop}

/-- What held before the operation holds after it. -/
abbrev Keeps (P : Kernel C → Prop) (act : Act C α) : Prop := act.Within fun k k' => P k → P k'

theorem Keeps.bind (h : act.Keeps P) (hf : ∀ a, (f a).Keeps P) : (act >>= f).Keeps P :=
  Within.bind (fun hfirst hrest hk => hrest (hfirst hk)) h hf

theorem Mild.keeps (hP : Durable P) (h : act.Mild) : act.Keeps P :=
  fun k a k' hact => hP.kin (h k a k' hact)

theorem Keeps.masked (hP : Durable P) (h : act.Keeps P) : (masked act).Keeps P :=
  (mild_level.keeps hP).bind fun old => ((mild_setLevel .off).keeps hP).bind fun _ =>
    h.bind fun a => ((mild_setLevel old).keeps hP).bind fun _ => (mild_pure a).keeps hP

theorem Mild.masked (h : act.Mild) : (masked act).Mild :=
  mild_level.bind fun old => (mild_setLevel .off).bind fun _ =>
    h.bind fun a => (mild_setLevel old).bind fun _ => mild_pure a

end Act

/-- The hooks of a process layer keep a property. -/
structure Hooks.Keep (P : Kernel C → Prop) (hooks : Hooks C) : Prop where
  activate : ∀ i, (hooks.activate i).Keeps P
  exit : ∀ i, (hooks.exit i).Keeps P
  isUser : ∀ i, (hooks.isUser i).Keeps P

/-! ## Threads that survive -/

namespace Tables

variable {β : Type} {t t' u : Tables β} {status : Status} {way : Way} {d : Dispatch}

theorem survive_of_giveUp (h : t.giveUp status = .ok (d, t')) : t.Survive t' := by
  obtain ⟨c, _, v, _, _, _, hreap, hdispatch⟩ := giveUp_eq_ok_iff.mp h
  obtain ⟨_, _, _, _, _, rfl⟩ := dispatch_eq_ok_iff.mp hdispatch
  have hreaped : t.Survive v :=
    (Survive.of_find? fun _ => rfl : t.Survive { t with reclaim := [] }).trans
      (reaped_of_reap hreap).survive
  have hstopped : v.Survive (v.modifyThread c fun th => { th with status }) :=
    survive_modifyThread fun _ => ⟨rfl, rfl, rfl, rfl, rfl, rfl⟩
  exact (hreaped.trans hstopped).trans survive_handedOver

theorem survive_of_mark (h : t.mark way = .ok u) : t.Survive u := by
  cases hc : t.current with
  | some c => exact eq_marked_of_mark h hc ▸ steady_marked.survive
  | none =>
    -- only a thread that runs can be marked for the queue or the registry
    cases way with
    | block => cases h; exact .refl t
    | exit => cases h; exact .refl t
    | yield =>
      obtain ⟨_, hsome, _⟩ := requeueCurrent_eq_ok_iff.mp h
      rw [hc] at hsome
      cases hsome
    | sleep =>
      obtain ⟨_, hsome, _⟩ := fallAsleep_eq_ok_iff.mp h
      rw [hc] at hsome
      cases hsome

theorem survive_of_charge {kind : TickKind} {timeSlice : Nat} {expired : Bool}
    (h : t.charge kind timeSlice = .ok (expired, u)) : t.Survive u := by
  obtain ⟨_, _, _, _, rfl⟩ := charge_eq_ok_iff.mp h
  exact .of_find? fun _ => rfl

end Tables

/-! ## Every call -/

namespace Kernel

open Act

variable {P : Kernel C → Prop} {hooks : Hooks C} {k k' : Kernel C}

theorem keeps_call {point : HookPoint} {id : ThreadId} {absent : α} {act : Act C α} (hP : Durable P)
    (h : act.Keeps P) : (Hooks.call point id absent act).Keeps P :=
  (mild_get.keeps hP).bind fun _ => by
    split
    · exact (mild_level.keeps hP).bind fun _ => ((mild_record rfl rfl).keeps hP).bind fun _ => h
    · exact (mild_pure _).keeps hP

theorem keeps_giveUpCpu (hP : Durable P) (hh : hooks.Keep P) (status : Status) :
    (giveUpCpu hooks status).Keeps P := by
  refine ((mild_requireMasked _).keeps hP).bind fun _ => ?_
  refine Keeps.bind ((mild_update fun _ _ _ h => Tables.survive_of_giveUp h).keeps hP) fun d => ?_
  refine (mild_level.keeps hP).bind fun _ => ((mild_record rfl rfl).keeps hP).bind fun _ => ?_
  refine (keeps_call hP (hh.activate d.next)).bind fun _ => ?_
  split
  · exact mild_switchContext.keeps hP
  · exact (mild_pure ()).keeps hP

theorem keeps_block (hP : Durable P) (hh : hooks.Keep P) : (block hooks).Keeps P :=
  ((mild_requireThreadContext _).keeps hP).bind fun _ =>
    ((mild_requireMasked _).keeps hP).bind fun _ => keeps_giveUpCpu hP hh _

/-- A thread marks itself and leaves. -/
theorem keeps_markedSection (hP : Durable P) (hh : hooks.Keep P) (way : Way) :
    (masked (do change (Tables.mark way); giveUpCpu hooks way.status)).Keeps P :=
  Keeps.masked hP (Keeps.bind ((mild_change fun _ _ h => Tables.survive_of_mark h).keeps hP) fun _ =>
    keeps_giveUpCpu hP hh _)

theorem keeps_yieldNow (hP : Durable P) (hh : hooks.Keep P) : (yieldNow hooks).Keeps P :=
  ((mild_requireThreadContext _).keeps hP).bind fun _ => keeps_markedSection hP hh .yield

theorem keeps_sleepUntil (hP : Durable P) (hh : hooks.Keep P) (wakeTick : Nat) :
    (sleepUntil hooks wakeTick).Keeps P :=
  ((mild_requireThreadContext _).keeps hP).bind fun _ => keeps_markedSection hP hh (.sleep wakeTick)

theorem keeps_exit (hP : Durable P) (hh : hooks.Keep P) : (exit hooks).Keeps P :=
  ((mild_requireThreadContext _).keeps hP).bind fun _ => ((mild_inspect _).keeps hP).bind fun id =>
    ((mild_record rfl rfl).keeps hP).bind fun _ => (keeps_call hP (hh.exit id)).bind fun _ =>
      ((mild_setLevel .off).keeps hP).bind fun _ => keeps_giveUpCpu hP hh _

theorem keeps_sleep (hP : Durable P) (hh : hooks.Keep P) (ticks : Nat) : (sleep hooks ticks).Keeps P :=
  (mild_get.keeps hP).bind fun _ => ((mild_requireUnmasked _).keeps hP).bind fun _ =>
    keeps_sleepUntil hP hh _

theorem keeps_realTimeSleep (hP : Durable P) (hh : hooks.Keep P) (num denom : Nat) :
    (realTimeSleep hooks num denom).Keeps P :=
  (mild_get.keeps hP).bind fun _ => ((mild_orFault _).keeps hP).bind fun _ =>
    ((mild_requireUnmasked _).keeps hP).bind fun _ => by
      split
      · exact keeps_sleep hP hh _
      · exact ((mild_orFault _).keeps hP).bind fun _ => (mild_record rfl rfl).keeps hP

theorem mild_advanceClock : (advanceClock : Act C Nat).Mild := by
  intro k now k' h
  obtain ⟨_, _, rfl⟩ := eq_of_advanceClock h
  exact ⟨.refl _, rfl, rfl, rfl, rfl, fun _ => rfl⟩

theorem mild_wakeSleepers (now : Nat) : (wakeSleepers now : Act C (ThreadId × Bool × Nat)).Mild :=
  Mild.bind (mild_update fun _ _ _ h => (Tables.steady_wakeDue h).survive) fun _ =>
    (mild_inspect _).bind fun _ => mild_get.bind fun _ => mild_pure _

theorem keeps_tickKind (hP : Durable P) (hh : hooks.Keep P) (id : ThreadId) (idle : Bool) :
    (tickKind hooks id idle).Keeps P := by
  unfold tickKind
  split
  · exact (mild_pure _).keeps hP
  · refine (keeps_call hP (hh.isUser id)).bind fun user => ?_
    split <;> exact (mild_pure _).keeps hP

theorem mild_requestYield : (requestYield : Act C Unit).Mild :=
  mild_modify (g := fun k => { k with yieldOnReturn := true })
    fun _ => ⟨.refl _, rfl, rfl, rfl, rfl, fun _ => rfl⟩

theorem mild_setInInterrupt (inside : Bool) : (setInInterrupt inside : Act C Unit).Mild :=
  mild_modify (g := fun k => { k with inInterrupt := inside })
    fun _ => ⟨.refl _, rfl, rfl, rfl, rfl, fun _ => rfl⟩

theorem keeps_tickThreads (hP : Durable P) (hh : hooks.Keep P) (now : Nat) :
    (tickThreads hooks now).Keeps P := by
  refine (mild_get.keeps hP).bind fun _ => ?_
  split
  · refine ((mild_wakeSleepers now).keeps hP).bind fun ⟨id, idle, woken⟩ => ?_
    refine (keeps_tickKind hP hh id idle).bind fun kind => (mild_get.keeps hP).bind fun _ => ?_
    refine Keeps.bind ((mild_update fun _ _ _ h => Tables.survive_of_charge h).keeps hP) fun _ => ?_
    split
    · exact mild_requestYield.keeps hP
    · exact (mild_pure ()).keeps hP
  · exact (mild_pure ()).keeps hP

theorem keeps_timerInterrupt (hP : Durable P) (hh : hooks.Keep P) : (timerInterrupt hooks).Keeps P :=
  ((mild_requireMasked _).keeps hP).bind fun _ => ((mild_requireThreadContext _).keeps hP).bind fun _ =>
    ((mild_setInInterrupt true).keeps hP).bind fun _ => (mild_advanceClock.keeps hP).bind fun now =>
      (keeps_tickThreads hP hh now).bind fun _ => (mild_setInInterrupt false).keeps hP

theorem keeps_onTimerInterrupt (hP : Durable P) (hh : hooks.Keep P) :
    (onTimerInterrupt hooks).Keeps P :=
  (keeps_timerInterrupt hP hh).bind fun _ => (mild_get.keeps hP).bind fun _ => by
    split
    · have hcalm : (modify fun k => { k with yieldOnReturn := false } : Act C Unit).Mild :=
        mild_modify (g := fun k => { k with yieldOnReturn := false })
          fun _ => ⟨.refl _, rfl, rfl, rfl, rfl, fun _ => rfl⟩
      exact (hcalm.keeps hP).bind fun _ => keeps_yieldNow hP hh
    · exact (mild_pure ()).keeps hP

/-! ### Making threads -/

theorem mild_unblock (id : ThreadId) : (unblock id : Act C Unit).Mild :=
  Mild.masked (mild_change fun _ _ h => (Tables.steady_unblock h).survive)

theorem mild_setPriority (priority : Nat) : (setPriority priority : Act C Unit).Mild := by
  refine Mild.masked (mild_change fun t t' h => ?_)
  obtain ⟨id, _, h⟩ := Fault.bind_eq_ok_iff.mp h
  obtain ⟨_, _, h⟩ := Fault.bind_eq_ok_iff.mp h
  cases h
  exact Tables.survive_modifyThread fun _ => ⟨rfl, rfl, rfl, rfl, rfl, rfl⟩

/-- The running code is adopted, or nothing happens. -/
theorem keeps_init (hP : Durable P) : (init : Act C (Except BringUpError Unit)).Keeps P := by
  intro k r k' h
  have hoff : Maskable.level k.cpu = .off := (requireMasked_bind_eq_ok_iff.mp h).1
  cases hup : k.initialized with
  | true =>
    rw [init_of_up hoff hup] at h
    cases h
    exact id
  | false =>
    rw [init_of_down hoff hup] at h
    cases h
    exact hP.adopted hup

variable {name : String} {priority : Nat} {entry : Entry C.Body} {page : Page} {pool : PagePool}

/-- A thread that was spawned is hired as soon as that is put on record. -/
theorem hires_of_spawned {t : Tables C.Body} {e : Event C.Note} (cpu : FlagCpu) (started : Bool)
    (hup : k.initialized = true) (he : e.isSpawn = true)
    (ht : (k.spawned name priority entry page pool).tables.Survive t) :
    k.Hires entry { k.spawned name priority entry page pool with
      tables := t
      cpu
      started
      history := e :: .updated .off :: (k.spawned name priority entry page pool).history } := by
  have hstart : e.isStart = false := by
    cases e with
    | entered => cases he
    | _ => rfl
  refine ⟨hup, ⟨name, priority, page, pool, ht⟩, rfl, hup, rfl, ?_, fun t => ?_⟩
  · unfold spawns
    rw [List.countP_cons_of_pos he]
    rfl
  · unfold starts
    rw [List.filterMap_cons_none (Event.startOf_of_not_isStart hstart t)]
    rfl

/-- A thread is created, or nothing happens. -/
theorem hires_of_create {body : C.Body} {r : Except SpawnError ThreadId}
    (h : create name priority body k = .ok r k') :
    ((∃ e, r = .error e) ∧ k' = k) ∨ (r = .ok k.nextId ∧ k.Hires (.body body) k') := by
  unfold create at h
  split at h
  · obtain ⟨rfl, rfl⟩ := pure_eq_ok_iff.mp h
    exact .inl ⟨⟨_, rfl⟩, rfl⟩
  · cases hup : k.initialized with
    | false =>
      rw [bind_of_ok (spawn_of_down hup)] at h
      obtain ⟨rfl, rfl⟩ := pure_eq_ok_iff.mp h
      exact .inl ⟨⟨_, rfl⟩, rfl⟩
    | true =>
      cases hpool : k.tables.pool.allocate with
      | none =>
        rw [bind_of_ok (spawn_of_none hup hpool)] at h
        obtain ⟨rfl, rfl⟩ := pure_eq_ok_iff.mp h
        exact .inl ⟨⟨_, rfl⟩, rfl⟩
      | some taken =>
        obtain ⟨page, pool⟩ := taken
        rw [bind_of_ok (spawn_of_some hup hpool)] at h
        dsimp only at h
        obtain ⟨_, k₂, hunblock, h⟩ := bind_eq_ok_iff.mp h
        obtain ⟨k₁, hsection, rfl⟩ := masked_eq_ok_iff.mp hunblock
        obtain ⟨t, ht, rfl⟩ := change_eq_ok_iff.mp hsection
        rw [log_bind] at h
        obtain ⟨rfl, rfl⟩ := pure_eq_ok_iff.mp h
        refine .inr ⟨rfl, ?_⟩
        have hhires := hires_of_spawned (e := .log (.created name k.nextId priority))
          (Maskable.setLevel (Maskable.level k.cpu) (Maskable.setLevel .off k.cpu)) k.started hup rfl
          (Tables.steady_unblock ht).survive
        rw [FlagCpu.level_setLevel]
        exact hhires

theorem keeps_create (hP : Durable P) (name : String) (priority : Nat) (body : C.Body) :
    (create name priority body).Keeps P := by
  intro k r k' h
  rcases hires_of_create h with ⟨_, rfl⟩ | ⟨_, hhires⟩
  · exact id
  · exact hP.hired hhires

/-- The idle thread is made, or nothing happens. -/
theorem hires_of_start {r : Except Error Unit} (h : start k = .ok r k') :
    ((∃ e, r = .error e) ∧ k' = k) ∨
      (r = .ok () ∧ k'.tables.idle = some k.nextId ∧ k.Hires .idleLoop k') := by
  cases hup : k.initialized with
  | false =>
    rw [start_of_down hup] at h
    cases h
    exact .inl ⟨⟨_, rfl⟩, rfl⟩
  | true =>
    cases hfirst : k.started with
    | true =>
      rw [start_of_started hup hfirst] at h
      cases h
      exact .inl ⟨⟨_, rfl⟩, rfl⟩
    | false =>
      cases hpool : k.tables.pool.allocate with
      | none =>
        rw [start_of_none hup hfirst hpool] at h
        cases h
        exact .inl ⟨⟨_, rfl⟩, rfl⟩
      | some taken =>
        obtain ⟨page, pool⟩ := taken
        rw [start_of_some hup hfirst hpool] at h
        cases h
        exact .inr ⟨rfl, rfl, hires_of_spawned _ _ hup rfl (.of_find? fun _ => rfl)⟩

theorem keeps_start (hP : Durable P) : (start : Act C (Except Error Unit)).Keeps P := by
  intro k r k' h
  rcases hires_of_start h with ⟨_, rfl⟩ | ⟨_, _, hhires⟩
  · exact id
  · exact hP.hired hhires

end Kernel

/-- A durable property lasts through every call, if the hooks keep it. -/
theorem Call.keeps {P : Kernel C → Prop} {hooks : Hooks C} (hP : Kernel.Durable P) (hh : hooks.Keep P)
    (c : Call C.Body) : (c.perform hooks).Keeps P := by
  have hdone {α : Type} {act : Act C α} (f : α → Reply) (h : act.Keeps P) :
      (act >>= fun a => pure (f a) : Act C Reply).Keeps P :=
    h.bind fun _ => (Act.mild_pure _).keeps hP
  have hset {g : Kernel C → Kernel C} (h : ∀ k, Kernel.Kin k (g k)) : (modify g : Act C Unit).Keeps P :=
    (Act.mild_modify h).keeps hP
  cases c with
  | init => exact hdone _ (Kernel.keeps_init hP)
  | start => exact hdone _ (Kernel.keeps_start hP)
  | create name priority body => exact hdone _ (Kernel.keeps_create hP name priority body)
  | unblock id => exact hdone _ ((Kernel.mild_unblock id).keeps hP)
  | block => exact hdone _ (Kernel.keeps_block hP hh)
  | yieldNow => exact hdone _ (Kernel.keeps_yieldNow hP hh)
  | exit => exact hdone _ (Kernel.keeps_exit hP hh)
  | sleepUntil wakeTick => exact hdone _ (Kernel.keeps_sleepUntil hP hh wakeTick)
  | sleep ticks => exact hdone _ (Kernel.keeps_sleep hP hh ticks)
  | realTimeSleep num denom => exact hdone _ (Kernel.keeps_realTimeSleep hP hh num denom)
  | sleepMillis n => exact hdone _ (Kernel.keeps_realTimeSleep hP hh n 1000)
  | sleepMicros n => exact hdone _ (Kernel.keeps_realTimeSleep hP hh n 1000000)
  | sleepNanos n => exact hdone _ (Kernel.keeps_realTimeSleep hP hh n 1000000000)
  | sleepFor d => exact hdone _ (Kernel.keeps_realTimeSleep hP hh d.nanos 1000000000)
  | timerInterrupt => exact hdone _ (Kernel.keeps_timerInterrupt hP hh)
  | onTimerInterrupt => exact hdone _ (Kernel.keeps_onTimerInterrupt hP hh)
  | setPriority priority => exact hdone _ ((Kernel.mild_setPriority priority).keeps hP)
  | setLevel l =>
    exact (Act.mild_level.bind fun _ => (Act.mild_setLevel l).bind fun _ => Act.mild_pure _).keeps hP
  | advanceClock => exact hdone _ (Kernel.mild_advanceClock.keeps hP)
  | setLoopsPerTick loops =>
    exact hdone _ (hset fun _ => ⟨.refl _, rfl, rfl, rfl, rfl, fun _ => rfl⟩)
  | dumpStats =>
    exact hdone _ ((Act.mild_get.bind fun _ => Act.mild_record rfl rfl).keeps hP)
  | timerStats =>
    exact hdone _ ((Act.mild_get.bind fun _ => Act.mild_record rfl rfl).keeps hP)
  | installHooks => exact hdone _ (hset fun _ => ⟨.refl _, rfl, rfl, rfl, rfl, fun _ => rfl⟩)

end RoundRobin
