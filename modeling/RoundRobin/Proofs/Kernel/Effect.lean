import RoundRobin.Proofs.Kernel.Act
import RoundRobin.Proofs.Kernel.Core

/-!
# Calls and their effects

Every call that comes back has one of the effects listed in `Core.Effect`, whatever the interrupt
level, the client and the process layer, so long as the hooks only ask.
-/

namespace RoundRobin.Kernel

open Act

variable {C : Client} {hooks : Hooks C} {k k' k₁ : Kernel C}

/-! ## What the core does not see -/

@[simp] theorem core_setLevel (l : Level) (k : Kernel C) :
    ({ k with cpu := Maskable.setLevel l k.cpu } : Kernel C).core = k.core := by
  cases l <;> rfl

/-- The core sees threads that are made, and decisions, and no other event. -/
theorem core_record {e : Event C.Note} (hs : e.isSpawn = false) (hd : e.decision? = none)
    (k : Kernel C) : ({ k with history := e :: k.history } : Kernel C).core = k.core := by
  simp [core, spawns, decisions, hs, hd]

theorem core_reports {reports : List (Event C.Note)} {client : C.State}
    (h : ∀ e ∈ reports, e.isReport = true) (k : Kernel C) :
    ({ k with history := reports ++ k.history, client } : Kernel C).core = k.core := by
  have hs : reports.countP (·.isSpawn) = 0 := by
    rw [List.countP_eq_zero]
    intro e he
    rw [Event.isSpawn_of_isReport (h e he)]
    exact nofun
  have hd : reports.filterMap (·.decision?) = [] := by
    rw [List.filterMap_eq_nil_iff]
    exact fun e he => Event.decision?_of_isReport (h e he)
  simp [core, spawns, decisions, hs, hd]

/-- A thread that was made is counted. -/
theorem spawns_record {e : Event C.Note} (h : e.isSpawn = true) (k : Kernel C) :
    ({ k with history := e :: k.history } : Kernel C).spawns = k.spawns + 1 := by
  simp [spawns, h]

theorem core_of_onlyAsks {α : Type} {act : Act C α} {a : α} (hask : act.OnlyAsks)
    (h : act k = .ok a k') : k'.core = k.core := by
  obtain ⟨reports, client, hreports, rfl⟩ := hask k a k' h
  exact core_reports hreports k

/-- Hooks that only ask do not touch the core. -/
theorem core_of_call {α : Type} {point : HookPoint} {id : ThreadId} {absent a : α} {act : Act C α}
    (hask : act.OnlyAsks) (h : Hooks.call point id absent act k = .ok a k') :
    k'.core = k.core := by
  unfold Hooks.call at h
  rw [get_bind] at h
  split at h
  · rw [level_bind, record_bind] at h
    exact (core_of_onlyAsks hask h).trans (core_record rfl rfl _)
  · rw [(pure_eq_ok_iff.mp h).2]

/-- Masking interrupts for a while does not touch the core. -/
theorem core_of_masked {α : Type} {act : Act C α} {a : α} (h : masked act k = .ok a k') :
    ∃ k₀ k₁, k₀.core = k.core ∧ act k₀ = .ok a k₁ ∧ k'.core = k₁.core := by
  obtain ⟨k₁, hact, rfl⟩ := masked_eq_ok_iff.mp h
  exact ⟨_, k₁, core_setLevel .off k, hact, core_setLevel _ k₁⟩

/-- A critical section changes the tables and nothing else. -/
theorem core_of_change {f : Tables C.Body → Except Fault (Tables C.Body)} {u : Unit}
    (h : change f k = .ok u k') :
    ∃ t, f k.tables = .ok t ∧ k'.core = { k.core with tables := t } := by
  obtain ⟨t, ht, rfl⟩ := change_eq_ok_iff.mp h
  exact ⟨t, ht, rfl⟩

theorem tables_of_core (h : k'.core = k.core) : k'.tables = k.tables := congrArg Core.tables h

/-! ## Giving up the processor -/

theorem core_of_giveUpCpu {status : Status} {u : Unit} (hq : hooks.QueryOnly)
    (h : giveUpCpu hooks status k = .ok u k') :
    ∃ d t, k.tables.giveUp status = .ok (d, t) ∧ k'.core = k.core.left d t := by
  unfold giveUpCpu at h
  obtain ⟨_, h⟩ := requireMasked_bind_eq_ok_iff.mp h
  rw [bind_eq_ok_iff] at h
  obtain ⟨d, k₁, hu, h⟩ := h
  obtain ⟨t, ht, rfl⟩ := update_eq_ok_iff.mp hu
  refine ⟨d, t, ht, ?_⟩
  rw [level_bind, record_bind, bind_eq_ok_iff] at h
  obtain ⟨_, k₂, hcall, h⟩ := h
  -- the hook between the decision and the switch leaves no trace in the core
  have hcore := core_of_call (hq.activate d.next) hcall
  split at h
  · next hne =>
    obtain ⟨_, _, rfl⟩ := switchContext_eq_ok_iff.mp h
    have hswitched : ({ k₂ with
        cpu := { k₂.cpu with switches := k₂.cpu.switches + 1 }
        history := .switched .off :: k₂.history } : Kernel C).core
          = { k₂.core with switches := k₂.core.switches + 1 } := rfl
    rw [hswitched, hcore]
    simp only [Core.left, if_neg hne]
    rfl
  · next heq =>
    rw [(pure_eq_ok_iff.mp h).2, hcore]
    simp only [Core.left, if_pos (Classical.not_not.mp heq)]
    rfl

/-- A marked thread that gives up the processor has left. -/
theorem core_of_markedSection (way : Way) {u : Unit} (hq : hooks.QueryOnly)
    (h : masked (do change (Tables.mark way); giveUpCpu hooks way.status) k = .ok u k') :
    ∃ d t, k.tables.leave way = .ok (d, t) ∧ k'.core = k.core.left d t := by
  obtain ⟨k₀, k₁, h₀, h, h₁⟩ := core_of_masked h
  rw [bind_eq_ok_iff] at h
  obtain ⟨_, k₂, hmark, h⟩ := h
  obtain ⟨v, hv, h₂⟩ := core_of_change hmark
  obtain ⟨d, t, hg, h₃⟩ := core_of_giveUpCpu hq h
  rw [tables_of_core h₀] at hv
  rw [show k₂.tables = v from congrArg Core.tables h₂] at hg
  refine ⟨d, t, Tables.leave_eq_ok_iff.mpr ⟨v, hv, hg⟩, ?_⟩
  rw [h₁, h₃, h₂, h₀]
  rfl

theorem core_of_block {u : Unit} (hq : hooks.QueryOnly) (h : block hooks k = .ok u k') :
    ∃ d t, k.tables.leave .block = .ok (d, t) ∧ k'.core = k.core.left d t := by
  unfold block at h
  obtain ⟨_, h⟩ := requireThreadContext_bind_eq_ok_iff.mp h
  obtain ⟨_, h⟩ := requireMasked_bind_eq_ok_iff.mp h
  obtain ⟨d, t, hg, hcore⟩ := core_of_giveUpCpu hq h
  exact ⟨d, t, Tables.leave_eq_ok_iff.mpr ⟨_, rfl, hg⟩, hcore⟩

theorem core_of_yieldNow {u : Unit} (hq : hooks.QueryOnly) (h : yieldNow hooks k = .ok u k') :
    ∃ d t, k.tables.leave .yield = .ok (d, t) ∧ k'.core = k.core.left d t := by
  unfold yieldNow at h
  obtain ⟨_, h⟩ := requireThreadContext_bind_eq_ok_iff.mp h
  exact core_of_markedSection .yield hq h

theorem core_of_sleepUntil {w : Nat} {u : Unit} (hq : hooks.QueryOnly)
    (h : sleepUntil hooks w k = .ok u k') :
    ∃ d t, k.tables.leave (.sleep w) = .ok (d, t) ∧ k'.core = k.core.left d t := by
  unfold sleepUntil at h
  obtain ⟨_, h⟩ := requireThreadContext_bind_eq_ok_iff.mp h
  exact core_of_markedSection (.sleep w) hq h

theorem core_of_exit {u : Unit} (hq : hooks.QueryOnly) (h : exit hooks k = .ok u k') :
    ∃ d t, k.tables.leave .exit = .ok (d, t) ∧ k'.core = k.core.left d t := by
  unfold exit at h
  obtain ⟨_, h⟩ := requireThreadContext_bind_eq_ok_iff.mp h
  obtain ⟨id, _, h⟩ := inspect_bind_eq_ok_iff.mp h
  rw [log_bind, bind_eq_ok_iff] at h
  obtain ⟨_, k₁, hcall, h⟩ := h
  -- the message and the hook come first, and neither touches the tables
  have h₁ := (core_of_call (hq.exit id) hcall).trans (core_record rfl rfl _)
  rw [setLevel_bind] at h
  obtain ⟨d, t, hg, h₂⟩ := core_of_giveUpCpu hq h
  rw [core_setLevel, h₁] at h₂
  refine ⟨d, t, Tables.leave_eq_ok_iff.mpr ⟨_, rfl, ?_⟩, h₂⟩
  rw [← tables_of_core h₁]
  exact hg

/-- A sleep of some ticks is a sleep until the tick that lies so far ahead. -/
theorem sleepUntil_of_sleep {n : Nat} {u : Unit} (h : sleep hooks n k = .ok u k') :
    sleepUntil hooks (k.clock.deadline n) k = .ok u k' := by
  unfold sleep at h
  rw [get_bind] at h
  obtain ⟨_, h⟩ := requireUnmasked_bind_eq_ok_iff.mp h
  exact h

theorem core_of_sleep {n : Nat} {u : Unit} (hq : hooks.QueryOnly)
    (h : sleep hooks n k = .ok u k') :
    ∃ d t, k.tables.leave (.sleep (k.clock.deadline n)) = .ok (d, t) ∧
      k'.core = k.core.left d t :=
  core_of_sleepUntil hq (sleepUntil_of_sleep h)

/-- A wait for a length of time is a sleep, or it is spent in the delay loop. -/
theorem core_of_realTimeSleep {num denom : Nat} {u : Unit} (hq : hooks.QueryOnly)
    (h : realTimeSleep hooks num denom k = .ok u k') :
    k'.core = k.core ∨ ∃ n d t, k.tables.leave (.sleep (k.clock.deadline n)) = .ok (d, t) ∧
      k'.core = k.core.left d t := by
  unfold realTimeSleep at h
  rw [get_bind] at h
  obtain ⟨ticks, _, h⟩ := orFault_bind_eq_ok_iff.mp h
  obtain ⟨_, h⟩ := requireUnmasked_bind_eq_ok_iff.mp h
  split at h
  · exact .inr ⟨ticks, core_of_sleep hq h⟩
  · obtain ⟨loops, _, h⟩ := orFault_bind_eq_ok_iff.mp h
    rw [busyWait, record, modify_eq_ok_iff] at h
    rw [h]
    exact .inl (core_record rfl rfl _)

theorem effect_of_realTimeSleep {num denom : Nat} {u : Unit} {c : Call C.Body}
    (hq : hooks.QueryOnly) (hc : c.isTimer = false)
    (h : realTimeSleep hooks num denom k = .ok u k') : Core.Effect k.core c k'.core := by
  rcases core_of_realTimeSleep hq h with hcore | ⟨n, d, t, ht, hcore⟩
  · exact hcore ▸ .nothing hc
  · exact hcore ▸ .leave hc ht ⟨nofun, nofun⟩

/-! ## Making threads -/

theorem core_of_unblock {id : ThreadId} {u : Unit} (h : unblock id k = .ok u k') :
    ∃ t, k.tables.unblock id = .ok t ∧ k'.core = { k.core with tables := t } := by
  obtain ⟨k₀, k₁, h₀, h, h₁⟩ := core_of_masked h
  obtain ⟨t, ht, h₂⟩ := core_of_change h
  rw [tables_of_core h₀] at ht
  exact ⟨t, ht, by rw [h₁, h₂, h₀]⟩

theorem core_of_takePage {r : Option Page} (h : takePage k = .ok r k') :
    (r = none ∧ k'.core = k.core) ∨ ∃ page pool, r = some page ∧
      k.tables.pool.allocate = some (page, pool) ∧
      k'.core = { k.core with tables := { k.tables with pool } } := by
  obtain ⟨k₀, k₁, h₀, h, h₁⟩ := core_of_masked h
  have htables := tables_of_core h₀
  rw [get_bind, htables] at h
  cases hpage : k.tables.pool.allocate with
  | none =>
    rw [hpage] at h
    obtain ⟨rfl, rfl⟩ := pure_eq_ok_iff.mp h
    exact .inl ⟨rfl, h₁.trans h₀⟩
  | some r =>
    obtain ⟨page, pool⟩ := r
    rw [hpage] at h
    dsimp only at h
    rw [bind_eq_ok_iff] at h
    obtain ⟨_, k₂, hchange, h⟩ := h
    obtain ⟨rfl, rfl⟩ := pure_eq_ok_iff.mp h
    obtain ⟨t, ht, h₂⟩ := core_of_change hchange
    cases ht
    refine .inr ⟨page, pool, rfl, rfl, ?_⟩
    rw [h₁, h₂, h₀, htables]

/-- A thread that was spawned is hired, but for the record of it. -/
theorem core_of_spawn {name : String} {priority : Nat} {entry : Entry C.Body}
    {r : Except SpawnError ThreadId} (h : spawn name priority entry k = .ok r k') :
    (∃ e, r = .error e ∧ k'.core = k.core) ∨ ∃ page pool, r = .ok k.nextId ∧
      k.initialized = true ∧ k.tables.pool.allocate = some (page, pool) ∧
      k'.core = { k.core.hired name priority entry page pool with spawns := k.spawns } := by
  unfold spawn at h
  rw [get_bind] at h
  split at h
  · next hup =>
    rw [bind_eq_ok_iff] at h
    obtain ⟨r', k₁, hpage, h⟩ := h
    rcases core_of_takePage hpage with ⟨rfl, h₁⟩ | ⟨page, pool, rfl, hpool, h₁⟩
    · obtain ⟨rfl, rfl⟩ := pure_eq_ok_iff.mp h
      exact .inl ⟨_, rfl, h₁⟩
    · dsimp only at h
      rw [takeId, modifyGet_bind, bind_eq_ok_iff] at h
      obtain ⟨_, k₂, hinsert, h⟩ := h
      obtain ⟨rfl, rfl⟩ := pure_eq_ok_iff.mp h
      obtain ⟨k₃, k₄, h₃, hinsert, h₄⟩ := core_of_masked hinsert
      obtain ⟨t, ht, h₅⟩ := core_of_change hinsert
      -- taking a page hands out no id
      have hid : k₁.nextId = k.nextId := congrArg Core.nextId h₁
      rw [tables_of_core h₃, show k₁.tables = { k.tables with pool } from congrArg Core.tables h₁,
        Except.ok.injEq, hid] at ht
      refine .inr ⟨page, pool, congrArg _ hid, hup, hpool, ?_⟩
      rw [h₄, h₅, h₃, ← ht]
      have hlater : ({ k₁ with nextId := k₁.nextId.next } : Kernel C).core
          = { k₁.core with nextId := k₁.nextId.next } := rfl
      rw [hlater, h₁, hid]
      rfl
  · obtain ⟨rfl, rfl⟩ := pure_eq_ok_iff.mp h
    exact .inl ⟨_, rfl, rfl⟩

/-- A created thread is hired and at once made ready. -/
theorem core_of_create {name : String} {priority : Nat} {body : C.Body}
    {r : Except SpawnError ThreadId} (h : create name priority body k = .ok r k') :
    (∃ e, r = .error e ∧ k'.core = k.core) ∨ ∃ page pool t, r = .ok k.nextId ∧
      k.initialized = true ∧ priority ≤ Priority.highest ∧
      k.tables.pool.allocate = some (page, pool) ∧
      (k.core.hired name priority (.body body) page pool).tables.unblock k.nextId = .ok t ∧
      k'.core = { k.core.hired name priority (.body body) page pool with tables := t } := by
  unfold create at h
  split at h
  · obtain ⟨rfl, rfl⟩ := pure_eq_ok_iff.mp h
    exact .inl ⟨_, rfl, rfl⟩
  · next hvalid =>
    rw [bind_eq_ok_iff] at h
    obtain ⟨r', k₁, hspawn, h⟩ := h
    rcases core_of_spawn hspawn with ⟨e, rfl, h₁⟩ | ⟨page, pool, rfl, hup, hpool, h₁⟩
    · obtain ⟨rfl, rfl⟩ := pure_eq_ok_iff.mp h
      exact .inl ⟨_, rfl, h₁⟩
    · dsimp only at h
      rw [bind_eq_ok_iff] at h
      obtain ⟨_, k₂, hunblock, h⟩ := h
      obtain ⟨t, ht, h₂⟩ := core_of_unblock hunblock
      rw [log_bind] at h
      obtain ⟨rfl, rfl⟩ := pure_eq_ok_iff.mp h
      rw [show k₁.tables = _ from congrArg Core.tables h₁] at ht
      refine .inr ⟨page, pool, t, rfl, hup, by omega, hpool, ht, ?_⟩
      -- the message is what counts the new thread
      have hlogged : ({ k₂ with
          history := .log (.created name k.nextId priority) :: k₂.history } : Kernel C).core
          = { k₂.core with spawns := k₂.spawns + 1 } := by
        simp only [core, decisions, List.filterMap_cons, Event.decision?]
        rw [spawns_record rfl]
      have hspawns : k₂.spawns = k.spawns :=
        (congrArg Core.spawns h₂).trans (congrArg Core.spawns h₁)
      rw [hlogged, hspawns, h₂, h₁]
      rfl

theorem effect_of_create {name : String} {priority : Nat} {body : C.Body}
    {r : Except SpawnError ThreadId} (h : create name priority body k = .ok r k') :
    Core.Effect k.core (.create name priority body) k'.core := by
  rcases core_of_create h with ⟨_, _, hcore⟩ | ⟨page, pool, t, _, hup, hvalid, hpool, ht, hcore⟩
  · exact hcore ▸ .nothing rfl
  · exact hcore ▸ .create hup hvalid hpool ht

/-! ## Bringing a kernel up -/

theorem effect_of_init {r : Except BringUpError Unit} (h : init k = .ok r k') :
    Core.Effect k.core .init k'.core := by
  unfold init at h
  obtain ⟨_, h⟩ := requireMasked_bind_eq_ok_iff.mp h
  rw [get_bind] at h
  split at h
  · rw [(pure_eq_ok_iff.mp h).2]
    exact .nothing rfl
  · next hfresh =>
    rw [modify_bind, takeId, modifyGet_bind, bind_eq_ok_iff] at h
    obtain ⟨_, k₁, hchange, h⟩ := h
    obtain ⟨t, ht, h₁⟩ := core_of_change hchange
    cases ht
    rw [get_bind, log_bind] at h
    rw [(pure_eq_ok_iff.mp h).2, core_record rfl rfl, h₁]
    exact .adopt ((Bool.not_eq_true _).mp hfresh)

theorem setStarted_bind {β : Type} (started : Bool) (f : Unit → Act C β) :
    (setStarted started >>= f) k = f () { k with started } := rfl

theorem core_setStarted (k : Kernel C) (started : Bool) :
    ({ k with started } : Kernel C).core = { k.core with started } := rfl

theorem effect_of_start {r : Except Error Unit} (h : start k = .ok r k') :
    Core.Effect k.core .start k'.core := by
  unfold start at h
  rw [get_bind] at h
  split at h
  · rw [(pure_eq_ok_iff.mp h).2]
    exact .nothing rfl
  · split at h
    · rw [(pure_eq_ok_iff.mp h).2]
      exact .nothing rfl
    · next hup hfirst =>
      have hfirst : k.started = false := (Bool.not_eq_true _).mp hfirst
      rw [setStarted_bind, bind_eq_ok_iff] at h
      obtain ⟨r', k₁, hspawn, h⟩ := h
      rcases core_of_spawn hspawn with ⟨e, rfl, h₁⟩ | ⟨page, pool, rfl, _, hpool, h₁⟩
      · -- the mark is taken back, and was not there before
        dsimp only at h
        rw [setStarted_bind] at h
        have hcore : k'.core = k.core := by
          rw [(pure_eq_ok_iff.mp h).2, core_setStarted, h₁, core_setStarted, ← hfirst]
          rfl
        exact hcore ▸ .nothing rfl
      · dsimp only at h
        rw [bind_eq_ok_iff] at h
        obtain ⟨_, k₂, hidle, h⟩ := h
        obtain ⟨k₃, k₄, h₃, hidle, h₄⟩ := core_of_masked hidle
        obtain ⟨t, ht, h₅⟩ := core_of_change hidle
        cases ht
        rw [log_bind, setLevel_bind] at h
        rw [(pure_eq_ok_iff.mp h).2, core_setLevel]
        have hlogged : ({ k₂ with history := .log (.started k.nextId) :: k₂.history } : Kernel C).core
            = { k₂.core with spawns := k₂.spawns + 1 } := by
          simp only [core, decisions, List.filterMap_cons, Event.decision?]
          rw [spawns_record rfl]
        have hcore : k₂.core = { k₁.core with tables := { k₁.tables with idle := some k.nextId } } := by
          rw [h₄, h₅, tables_of_core h₃, h₃]
        have hspawns : k₂.spawns = k.spawns :=
          (congrArg Core.spawns hcore).trans (congrArg Core.spawns h₁)
        rw [hlogged, hspawns, hcore, h₁, show k₁.tables = _ from congrArg Core.tables h₁]
        exact .start ((Bool.not_eq_false _).mp hup) hfirst hpool

theorem effect_of_setPriority {priority : Nat} {u : Unit} (h : setPriority priority k = .ok u k') :
    Core.Effect k.core (.setPriority priority) k'.core := by
  obtain ⟨k₀, k₁, h₀, h, h₁⟩ := core_of_masked h
  obtain ⟨t, ht, h₂⟩ := core_of_change h
  rw [tables_of_core h₀, Fault.bind_eq_ok_iff] at ht
  obtain ⟨id, hid, ht⟩ := ht
  rw [Fault.bind_eq_ok_iff] at ht
  obtain ⟨_, _, ht⟩ := ht
  rw [Fault.pure_eq_ok_iff] at ht
  rw [h₁, h₂, h₀, ht]
  exact .prioritize (Tables.currentId_eq_ok_iff.mp hid)

/-! ## The timer -/

theorem eq_of_advanceClock {now : Nat} (h : advanceClock k = .ok now k') :
    k.clock.ticks ≠ Word.top ∧ now = k.clock.ticks + 1 ∧
      k' = { k with clock := { k.clock with ticks := k.clock.ticks + 1 } } := by
  unfold advanceClock at h
  rw [get_bind] at h
  obtain ⟨clock, hclock, h⟩ := orFault_bind_eq_ok_iff.mp h
  unfold Clock.advance at hclock
  split at hclock
  · cases hclock
  · next hroom =>
    cases hclock
    rw [modify_bind] at h
    obtain ⟨rfl, rfl⟩ := pure_eq_ok_iff.mp h
    exact ⟨hroom, rfl, rfl⟩

theorem core_of_advanceClock {now : Nat} (h : advanceClock k = .ok now k') :
    k.clock.ticks ≠ Word.top ∧ now = k.clock.ticks + 1 ∧ k'.core = k.core.later := by
  obtain ⟨hroom, hnow, rfl⟩ := eq_of_advanceClock h
  exact ⟨hroom, hnow, rfl⟩

/-- The first section of a tick wakes those who are due, and looks at the thread that it interrupted. -/
theorem eq_of_wakeSleepers {now woken : Nat} {id : ThreadId} {idle : Bool}
    (h : wakeSleepers now k = .ok (id, idle, woken) k') :
    ∃ t, k.tables.wakeDue now = .ok (woken, t) ∧ t.currentId = .ok id ∧ idle = t.isIdle id ∧
      k' = { k with tables := t, history := .updated (Maskable.level k.cpu) :: k.history } := by
  unfold wakeSleepers at h
  rw [bind_eq_ok_iff] at h
  obtain ⟨_, k₁, hwake, h⟩ := h
  obtain ⟨t, ht, rfl⟩ := update_eq_ok_iff.mp hwake
  obtain ⟨id', hid, h⟩ := inspect_bind_eq_ok_iff.mp h
  rw [get_bind] at h
  obtain ⟨hresult, rfl⟩ := pure_eq_ok_iff.mp h
  cases hresult
  exact ⟨t, ht, hid, rfl, rfl⟩

theorem core_of_tickKind {id : ThreadId} {idle : Bool} {kind : TickKind} (hq : hooks.QueryOnly)
    (h : tickKind hooks id idle k = .ok kind k') :
    (∃ user, kind = Tables.kindOf idle user) ∧ k'.core = k.core := by
  unfold tickKind at h
  split at h
  · next hidle =>
    obtain ⟨rfl, rfl⟩ := pure_eq_ok_iff.mp h
    exact ⟨⟨false, by rw [Tables.kindOf, if_pos hidle]⟩, rfl⟩
  · next hidle =>
    rw [bind_eq_ok_iff] at h
    obtain ⟨user, k₁, hcall, h⟩ := h
    have hcore := core_of_call (hq.isUser id) hcall
    rw [Bool.not_eq_true] at hidle
    subst hidle
    cases user with
    | true => obtain ⟨rfl, rfl⟩ := pure_eq_ok_iff.mp h; exact ⟨⟨true, rfl⟩, hcore⟩
    | false => obtain ⟨rfl, rfl⟩ := pure_eq_ok_iff.mp h; exact ⟨⟨false, rfl⟩, hcore⟩

/-- On an initialized kernel the handler opens its two sections on the tables that it finds. -/
theorem core_of_tickThreads {now : Nat} {u : Unit} (hq : hooks.QueryOnly)
    (h : tickThreads hooks now k = .ok u k') :
    (k.initialized = false ∧ k'.core = k.core) ∨ (k.initialized = true ∧ ∃ user asks t,
      k.tables.tick user now k.config.timeSlice = .ok (asks, t) ∧
        k'.core = { k.core with tables := t, yieldOnReturn := k.yieldOnReturn || asks }) := by
  unfold tickThreads at h
  rw [get_bind] at h
  split at h
  · next hup =>
    refine .inr ⟨hup, ?_⟩
    rw [bind_eq_ok_iff] at h
    obtain ⟨⟨id, idle, woken⟩, k₁, hwake, h⟩ := h
    -- the first section wakes, the second one charges; the hook between them only asks
    obtain ⟨v, hv, hc, rfl, rfl⟩ := eq_of_wakeSleepers hwake
    dsimp only at h
    rw [bind_eq_ok_iff] at h
    obtain ⟨kind, k₃, hkind, h⟩ := h
    obtain ⟨⟨user, rfl⟩, h₃⟩ := core_of_tickKind hq hkind
    rw [get_bind, bind_eq_ok_iff] at h
    obtain ⟨expired, k₄, hcharge, h⟩ := h
    obtain ⟨t, ht, rfl⟩ := update_eq_ok_iff.mp hcharge
    rw [show k₃.config = k.config from congrArg Core.config h₃,
      show k₃.tables = v from congrArg Core.tables h₃] at ht
    refine ⟨user, expired || v.isIdle id && decide (0 < woken), t, ?_, ?_⟩
    · unfold Tables.tick
      rw [Fault.bind_eq_ok_iff]
      refine ⟨_, hv, ?_⟩
      dsimp only
      rw [Fault.bind_eq_ok_iff]
      refine ⟨id, hc, ?_⟩
      rw [Fault.bind_eq_ok_iff]
      exact ⟨_, ht, rfl⟩
    · -- the yield is asked for under the same condition
      have hcore : ({ k₃ with
          tables := t
          history := .updated (Maskable.level k₃.cpu) :: k₃.history } : Kernel C).core
          = { k.core with tables := t } := by
        rw [core_record rfl rfl { k₃ with tables := t }]
        have htables : ({ k₃ with tables := t } : Kernel C).core
            = { k₃.core with tables := t } := rfl
        rw [htables, h₃]
        rfl
      have hold : k₃.yieldOnReturn = k.yieldOnReturn := congrArg Core.yieldOnReturn h₃
      cases hasks : expired || v.isIdle id && decide (0 < woken) with
      | true =>
        rw [if_pos (by simpa using hasks), requestYield, modify_eq_ok_iff] at h
        rw [h, Bool.or_true]
        exact congrArg (fun s : Core C => { s with yieldOnReturn := true }) hcore
      | false =>
        rw [if_neg (by simpa using hasks)] at h
        rw [(pure_eq_ok_iff.mp h).2, hcore, Bool.or_false]
        rfl
  · next hdown =>
    rw [(pure_eq_ok_iff.mp h).2]
    exact .inl ⟨by simpa using hdown, rfl⟩

theorem core_of_timerInterrupt {u : Unit} (hq : hooks.QueryOnly)
    (h : timerInterrupt hooks k = .ok u k') :
    k.clock.ticks ≠ Word.top ∧ k.inInterrupt = false ∧ Core.Ticked k.core k'.core := by
  unfold timerInterrupt at h
  obtain ⟨_, h⟩ := requireMasked_bind_eq_ok_iff.mp h
  obtain ⟨hout, h⟩ := requireThreadContext_bind_eq_ok_iff.mp h
  rw [setInInterrupt, modify_bind, bind_eq_ok_iff] at h
  obtain ⟨now, k₁, hadvance, h⟩ := h
  obtain ⟨hroom, rfl, h₁⟩ := core_of_advanceClock hadvance
  rw [bind_eq_ok_iff] at h
  obtain ⟨_, k₂, htick, h⟩ := h
  rw [setInInterrupt, modify_eq_ok_iff] at h
  subst h
  refine ⟨hroom, hout, ?_⟩
  have hlast : ({ k₂ with inInterrupt := false } : Kernel C).core
      = { k₂.core with inInterrupt := false } := rfl
  have hflag : k.core.inInterrupt = false := hout
  rw [hlast]
  rcases core_of_tickThreads hq htick with ⟨hdown, h₂⟩ | ⟨hup, user, asks, t, ht, h₂⟩
  · have hfresh : k.core.initialized = false := (congrArg Core.initialized h₁).symm.trans hdown
    -- the handler was entered from outside, so leaving it restores the flag
    have hsame : ({ k.core.later with inInterrupt := false } : Core C) = k.core.later := by
      rw [← hflag]
      rfl
    rw [h₂, h₁]
    exact hsame ▸ .early hfresh
  · have hready : k.core.initialized = true := (congrArg Core.initialized h₁).symm.trans hup
    have hsame : ({ k.core.ticked asks t with inInterrupt := false } : Core C)
        = k.core.ticked asks t := by
      rw [← hflag]
      rfl
    rw [show k₁.config = k.config from congrArg Core.config h₁,
      show k₁.tables = k.tables from congrArg Core.tables h₁] at ht
    rw [h₂, h₁, show k₁.yieldOnReturn = k.yieldOnReturn from congrArg Core.yieldOnReturn h₁]
    exact hsame ▸ .full hready ht

/-- A whole timer interrupt is the handler, and a yield if that asked for one. -/
theorem effect_of_onTimerInterrupt {u : Unit} (hq : hooks.QueryOnly)
    (h : onTimerInterrupt hooks k = .ok u k') :
    Core.Effect k.core .onTimerInterrupt k'.core := by
  unfold onTimerInterrupt at h
  rw [bind_eq_ok_iff] at h
  obtain ⟨_, k₁, htimer, h⟩ := h
  obtain ⟨hroom, hout, hticked⟩ := core_of_timerInterrupt hq htimer
  rw [get_bind] at h
  split at h
  · next hasked =>
    rw [modify_bind] at h
    obtain ⟨d, t, hleave, hcore⟩ := core_of_yieldNow hq h
    rw [hcore]
    exact .preempt hroom hout hticked hasked hleave
  · next hcalm =>
    rw [(pure_eq_ok_iff.mp h).2]
    exact .tick hroom hout hticked ((Bool.not_eq_true _).mp hcalm)

end RoundRobin.Kernel

namespace RoundRobin

open Act Kernel

variable {C : Client} {hooks : Hooks C} {k k' : Kernel C}

/-! ## All calls -/

/-- A call that comes back has one of the effects of its kind. -/
theorem Call.effect {c : Call C.Body} {r : Reply} (hq : hooks.QueryOnly)
    (h : c.perform hooks k = .ok r k') : Core.Effect k.core c k'.core := by
  cases c with
  | init => exact effect_of_init (ok_of_bind_pure h).choose_spec
  | start => exact effect_of_start (ok_of_bind_pure h).choose_spec
  | create => exact effect_of_create (ok_of_bind_pure h).choose_spec
  | setPriority => exact effect_of_setPriority (ok_of_bind_pure h).choose_spec
  | onTimerInterrupt => exact effect_of_onTimerInterrupt hq (ok_of_bind_pure h).choose_spec
  | unblock id =>
    obtain ⟨_, h⟩ := ok_of_bind_pure h
    obtain ⟨t, ht, hcore⟩ := core_of_unblock h
    exact hcore ▸ .unblock ht
  | block =>
    obtain ⟨_, h⟩ := ok_of_bind_pure h
    obtain ⟨d, t, ht, hcore⟩ := core_of_block hq h
    exact hcore ▸ .leave rfl ht ⟨fun _ => rfl, nofun⟩
  | yieldNow =>
    obtain ⟨_, h⟩ := ok_of_bind_pure h
    obtain ⟨d, t, ht, hcore⟩ := core_of_yieldNow hq h
    exact hcore ▸ .leave rfl ht ⟨nofun, nofun⟩
  | exit =>
    obtain ⟨_, h⟩ := ok_of_bind_pure h
    obtain ⟨d, t, ht, hcore⟩ := core_of_exit hq h
    exact hcore ▸ .leave rfl ht ⟨nofun, fun _ => rfl⟩
  | sleepUntil w =>
    obtain ⟨_, h⟩ := ok_of_bind_pure h
    obtain ⟨d, t, ht, hcore⟩ := core_of_sleepUntil hq h
    exact hcore ▸ .leave rfl ht ⟨nofun, nofun⟩
  | sleep n =>
    obtain ⟨_, h⟩ := ok_of_bind_pure h
    obtain ⟨d, t, ht, hcore⟩ := core_of_sleep hq h
    exact hcore ▸ .leave rfl ht ⟨nofun, nofun⟩
  | realTimeSleep => exact effect_of_realTimeSleep hq rfl (ok_of_bind_pure h).choose_spec
  | sleepMillis => exact effect_of_realTimeSleep hq rfl (ok_of_bind_pure h).choose_spec
  | sleepMicros => exact effect_of_realTimeSleep hq rfl (ok_of_bind_pure h).choose_spec
  | sleepNanos => exact effect_of_realTimeSleep hq rfl (ok_of_bind_pure h).choose_spec
  | sleepFor => exact effect_of_realTimeSleep hq rfl (ok_of_bind_pure h).choose_spec
  | timerInterrupt =>
    obtain ⟨_, h⟩ := ok_of_bind_pure h
    obtain ⟨hroom, hout, hticked⟩ := core_of_timerInterrupt hq h
    exact .timerInterrupt hroom hout hticked
  | advanceClock =>
    obtain ⟨_, h⟩ := ok_of_bind_pure h
    obtain ⟨hroom, _, hcore⟩ := core_of_advanceClock h
    exact hcore ▸ .advance hroom
  | setLevel l =>
    simp only [perform, level_bind, setLevel_bind] at h
    rw [(pure_eq_ok_iff.mp h).2, core_setLevel]
    exact .nothing rfl
  | setLoopsPerTick loops =>
    obtain ⟨_, h⟩ := ok_of_bind_pure h
    rw [modify_eq_ok_iff.mp h]
    exact .nothing rfl
  | dumpStats =>
    obtain ⟨_, h⟩ := ok_of_bind_pure h
    rw [modify_eq_ok_iff.mp h]
    exact .nothing rfl
  | timerStats =>
    obtain ⟨_, h⟩ := ok_of_bind_pure h
    rw [modify_eq_ok_iff.mp h]
    exact .nothing rfl
  | installHooks =>
    obtain ⟨_, h⟩ := ok_of_bind_pure h
    rw [modify_eq_ok_iff.mp h]
    exact .nothing rfl

/-- A creation alone answers with an id, and that id was next. -/
theorem Call.nextId_of_created {c : Call C.Body} {i : ThreadId}
    (h : c.perform hooks k = .ok (.created (.ok i)) k') : i = k.nextId := by
  cases c with
  | create =>
    obtain ⟨r, h, hr⟩ := bind_pure_eq_ok_iff.mp h
    cases hr
    rcases core_of_create h with ⟨_, he, _⟩ | ⟨_, _, _, hid, _⟩
    · cases he
    · cases hid
      rfl
  | setLevel l =>
    simp only [perform, level_bind, setLevel_bind] at h
    cases (pure_eq_ok_iff.mp h).1
  | _ =>
    obtain ⟨_, _, hr⟩ := bind_pure_eq_ok_iff.mp h
    cases hr

variable {allowed : Kernel C → Call C.Body → Prop} {calls : List (Call C.Body)}

/-- What every step of a call preserves holds after every run in which threads leave only in ways that
they may. -/
theorem Run.keeps_of_may {may : Core C → Way → Prop} {P : Core C → Prop} (hq : hooks.QueryOnly)
    (hkept : Core.KeptUnder may P) (hrun : Run hooks allowed k calls k')
    (hmay : ∀ k c, allowed k c → ∀ way, way.TakenBy c → may k.core way)
    (hk : P k.core) : P k'.core := by
  induction hrun with
  | nil => exact hk
  | snoc _ hc step ih => exact hkept.effect_of_may ih (hmay _ _ hc) (Call.effect hq step)

theorem Run.keeps {P : Core C → Prop} (hq : hooks.QueryOnly) (hkept : Core.Kept P)
    (hrun : Run hooks allowed k calls k') (hk : P k.core) : P k'.core :=
  hrun.keeps_of_may hq hkept (fun _ _ _ _ _ => trivial) hk

end RoundRobin
