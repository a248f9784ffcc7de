import RoundRobin.Proofs.Kernel.Effect
import RoundRobin.Proofs.Tables.Frame

/-!
# What never changes, and what only grows

The configuration stays as it is. A kernel stays initialized, threads are made and the clock advances,
and every decision is remembered.
-/

namespace RoundRobin

variable {C : Client} {hooks : Hooks C}

namespace Core

variable {s s' : Core C} {c : Call C.Body}

theorem kept_config (config : Config) : Kept (fun s : Core C => s.config = config) where
  later h _ := h
  adopted h _ := h
  hired h _ _ := h
  appointed h _ _ _ := h
  unblocked h _ := h
  left h _ _ := h
  prioritized h _ := h
  ticked h _ _ _ := h
  preempted h _ := h

theorem kept_initialized : Kept (fun s : Core C => s.initialized = true) where
  later h _ := h
  adopted _ _ := rfl
  hired h _ _ := h
  appointed h _ _ _ := h
  unblocked h _ := h
  left h _ _ := h
  prioritized h _ := h
  ticked h _ _ _ := h
  preempted h _ := h

theorem kept_started : Kept (fun s : Core C => s.started = true) where
  later h _ := h
  adopted h _ := h
  hired h _ _ := h
  appointed _ _ _ _ := rfl
  unblocked h _ := h
  left h _ _ := h
  prioritized h _ := h
  ticked h _ _ _ := h
  preempted h _ := h

/-- The clock never goes past its last tick. -/
theorem kept_bounded : Kept fun s : Core C => s.ticks ≤ Word.top where
  later h hroom := Nat.lt_of_le_of_ne h hroom
  adopted h _ := h
  hired h _ _ := h
  appointed h _ _ _ := h
  unblocked h _ := h
  left h _ _ := h
  prioritized h _ := h
  ticked h _ hroom _ := Nat.lt_of_le_of_ne h hroom
  preempted h _ := h

theorem kept_spawns (n : Nat) : Kept (fun s : Core C => n ≤ s.spawns) where
  later h _ := h
  adopted h _ := h
  hired h _ _ := Nat.le_succ_of_le h
  appointed h _ _ _ := Nat.le_succ_of_le h
  unblocked h _ := h
  left h _ _ := h
  prioritized h _ := h
  ticked h _ _ _ := h
  preempted h _ := h

theorem kept_boot (b : ThreadId) :
    Kept (fun s : Core C => s.initialized = true ∧ s.tables.boot = some b) where
  later h _ := h
  adopted h hfresh := absurd (h.1.symm.trans hfresh) nofun
  hired h _ _ := h
  appointed h _ _ _ := h
  unblocked h ht := ⟨h.1, (Tables.steady_unblock ht).boot.trans h.2⟩
  left h _ ht := ⟨h.1, (Tables.parting_of_leave ht).boot.trans h.2⟩
  prioritized h _ := h
  ticked h _ _ ht := ⟨h.1, (Tables.steady_tick ht).boot.trans h.2⟩
  preempted h ht := ⟨h.1, (Tables.parting_of_leave ht).boot.trans h.2⟩

/-- A call makes one decision at most, and makes the thread that it chose the current one. -/
theorem Effect.decisions (h : Effect s c s') : s'.decisions = s.decisions ∨
    ∃ d, s'.decisions = d :: s.decisions ∧ s'.tables.current = some d.next := by
  cases h with
  | nothing => exact .inl rfl
  | advance => exact .inl rfl
  | adopt => exact .inl rfl
  | start => exact .inl rfl
  | create => exact .inl rfl
  | unblock => exact .inl rfl
  | leave _ hleave => exact .inr ⟨_, rfl, (Tables.parting_of_leave hleave).current⟩
  | prioritize => exact .inl rfl
  | timerInterrupt _ _ ht => cases ht <;> exact .inl rfl
  | tick _ _ ht => cases ht <;> exact .inl rfl
  | preempt _ _ ht _ hleave =>
    cases ht <;> exact .inr ⟨_, rfl, (Tables.parting_of_leave hleave).current⟩

/-- The clock advances with every timer interrupt, and by itself. -/
theorem Effect.ticks (h : Effect s c s') : s.ticks ≤ s'.ticks ∧
    (c ≠ .advanceClock → s'.ticks = s.ticks + (if c.isTimer then 1 else 0)) := by
  cases h with
  | nothing hother => exact ⟨Nat.le_refl _, fun _ => by rw [hother]; rfl⟩
  | advance => exact ⟨Nat.le_succ _, fun h => absurd rfl h⟩
  | adopt => exact ⟨Nat.le_refl _, fun _ => rfl⟩
  | start => exact ⟨Nat.le_refl _, fun _ => rfl⟩
  | create => exact ⟨Nat.le_refl _, fun _ => rfl⟩
  | unblock => exact ⟨Nat.le_refl _, fun _ => rfl⟩
  | leave hother => exact ⟨Nat.le_refl _, fun _ => by rw [hother]; rfl⟩
  | prioritize => exact ⟨Nat.le_refl _, fun _ => rfl⟩
  | timerInterrupt _ _ ht => cases ht <;> exact ⟨Nat.le_succ _, fun _ => rfl⟩
  | tick _ _ ht => cases ht <;> exact ⟨Nat.le_succ _, fun _ => rfl⟩
  | preempt _ _ ht => cases ht <;> exact ⟨Nat.le_succ _, fun _ => rfl⟩

/-! ## Calls with a decision and calls without -/

/-- Without a decision nobody is removed or put aside. A page may have left the pool, for a thread that
was made. -/
structure Quiet (s s' : Core C) : Prop where
  decisions : s'.decisions = s.decisions
  reclaim : s'.tables.reclaim = s.tables.reclaim
  pool : s'.tables.pool = s.tables.pool ∨
    ∃ page, s.tables.pool.allocate = some (page, s'.tables.pool)
  lives : ∀ i, (s.tables.threads.find? i).isSome = true → (s'.tables.threads.find? i).isSome = true

/-- A decision was made, from tables `m` in which the same threads live: those that were there before
the call, or what the timer's handler made of them. -/
structure Decided (c : Call C.Body) (s s' : Core C) (m : Tables C.Body) (way : Way) (d : Dispatch) :
    Prop where
  steady : s.tables.Steady m
  current : m.current = s.tables.current
  sound : s.tables.Sound → m.Sound
  leave : m.leave way = .ok (d, s'.tables)
  decisions : s'.decisions = d :: s.decisions
  spawns : s'.spawns = s.spawns
  exits : way = .exit → c = .exit

theorem Quiet.of_steady (hdecisions : s'.decisions = s.decisions)
    (h : s.tables.Steady s'.tables) : Quiet s s' :=
  ⟨hdecisions, h.reclaim, .inl h.pool, fun i hi => (h.lives i).trans hi⟩

theorem Decided.previous {m : Tables C.Body} {way : Way} {d : Dispatch}
    (h : Decided c s s' m way d) : s.tables.current = some d.previous :=
  h.current.symm.trans (Tables.parting_of_leave h.leave).previous

theorem Ticked.steady (h : Ticked s s') : s.tables.Steady s'.tables ∧
    s'.decisions = s.decisions ∧ s'.tables.current = s.tables.current ∧
    (s.tables.Sound → s'.tables.Sound) ∧ s'.spawns = s.spawns := by
  cases h with
  | early => exact ⟨.refl _, rfl, rfl, fun hsound => hsound, rfl⟩
  | full _ ht =>
    exact ⟨Tables.steady_tick ht, rfl, by rw [Tables.rest_of_tick ht]; rfl,
      fun hsound => hsound.tick ht, rfl⟩

/-- A timer interrupt makes no thread. -/
theorem Effect.spawns_of_timer (h : Effect s c s') (htimer : c.isTimer = true) :
    s'.spawns = s.spawns := by
  cases h with
  | nothing hother => exact absurd (hother.symm.trans htimer) nofun
  | leave hother => exact absurd (hother.symm.trans htimer) nofun
  | timerInterrupt _ _ ht => exact ht.steady.2.2.2.2
  | tick _ _ ht => exact ht.steady.2.2.2.2
  | preempt _ _ ht => exact ht.steady.2.2.2.2
  | _ => cases htimer

theorem Effect.quiet_or_decided (h : Effect s c s') :
    Quiet s s' ∨ ∃ m way d, Decided c s s' m way d := by
  cases h with
  | nothing => exact .inl (.of_steady rfl (.refl _))
  | advance => exact .inl (.of_steady rfl (.refl _))
  | adopt => exact .inl ⟨rfl, rfl, .inl rfl, fun i hi => ThreadTable.lives_insert_of_lives hi _⟩
  | start _ _ hpool =>
    exact .inl ⟨rfl, rfl, .inr ⟨_, hpool⟩, fun i hi => ThreadTable.lives_insert_of_lives hi _⟩
  | @create _ _ _ page _ _ _ _ hpool hunblock =>
    have hsteady := Tables.steady_unblock hunblock
    have hsame := congrArg (fun pool => some (page, pool)) hsteady.pool.symm
    exact .inl ⟨rfl, hsteady.reclaim, .inr ⟨page, hpool.trans hsame⟩,
      fun i hi => (hsteady.lives i).trans (ThreadTable.lives_insert_of_lives hi _)⟩
  | unblock hunblock => exact .inl (.of_steady rfl (Tables.steady_unblock hunblock))
  | leave _ hleave htaken =>
    exact .inr ⟨_, _, _, .refl _, rfl, fun hsound => hsound, hleave, rfl, rfl, htaken.exits⟩
  | @prioritize priority =>
    exact .inl (.of_steady rfl (Tables.steady_modifyThread
      (f := fun th => { th with priority := Priority.clamp priority })
      fun _ => ⟨rfl, rfl, rfl, rfl, rfl, rfl⟩))
  | timerInterrupt _ _ ht => exact .inl (.of_steady ht.steady.2.1 ht.steady.1)
  | tick _ _ ht => exact .inl (.of_steady ht.steady.2.1 ht.steady.1)
  | preempt _ _ ht _ hleave =>
    obtain ⟨hsteady, hdecisions, hcurrent, hsound, hspawns⟩ := ht.steady
    exact .inr ⟨_, _, _, hsteady, hcurrent, hsound, hleave, congrArg (_ :: ·) hdecisions, hspawns,
      nofun⟩

end Core

variable {allowed : Kernel C → Call C.Body → Prop} {k k' : Kernel C} {calls : List (Call C.Body)}
  {c : Call C.Body} {r : Reply}

theorem Kernel.config_of_ofConfig {config : Config} {client : C.State}
    (h₀ : Kernel.ofConfig config client = .ok k) : k.config = config := by
  obtain ⟨_, _, rfl⟩ := Kernel.eq_of_ofConfig h₀
  rfl

theorem Run.config_eq {config : Config} {client : C.State} (hq : hooks.QueryOnly)
    (h₀ : Kernel.ofConfig config client = .ok k) (hrun : Run hooks allowed k calls k') :
    k'.config = config :=
  hrun.keeps hq (Core.kept_config config) (Kernel.config_of_ofConfig h₀)

theorem Run.spawns_le (hq : hooks.QueryOnly) (hrun : Run hooks allowed k calls k') :
    k.spawns ≤ k'.spawns :=
  hrun.keeps hq (Core.kept_spawns k.spawns) (Nat.le_refl _)

theorem Kernel.spawns_le_of_perform (hq : hooks.QueryOnly) (hstep : c.perform hooks k = .ok r k') :
    k.spawns ≤ k'.spawns :=
  (Core.kept_spawns k.spawns).effect (Nat.le_refl _) (Call.effect hq hstep)

/-- Decisions are added one at a time and never forgotten. -/
theorem Run.decisions_suffix (hq : hooks.QueryOnly) (hrun : Run hooks allowed k calls k') :
    ∃ made, k'.decisions = made ++ k.decisions := by
  induction hrun with
  | nil => exact ⟨[], rfl⟩
  | @snoc calls c r k₁ k₂ run may step ih =>
    obtain ⟨made, hmade⟩ := ih
    rcases (Call.effect hq step).decisions with hsame | ⟨d, hd, _⟩
    · exact ⟨made, hsame.trans hmade⟩
    · exact ⟨d :: made, hd.trans (congrArg (d :: ·) hmade)⟩

/-- A run without a decision removes nobody and puts nobody aside. -/
theorem Run.of_undecided (hq : hooks.QueryOnly) (hrun : Run hooks allowed k calls k')
    (hsame : k'.decisions = k.decisions) : k'.tables.reclaim = k.tables.reclaim ∧
      ∀ i, (k.tables.threads.find? i).isSome = true → (k'.tables.threads.find? i).isSome = true := by
  induction hrun with
  | nil => exact ⟨rfl, fun _ hi => hi⟩
  | @snoc calls c r k₁ k₂ run may step ih =>
    obtain ⟨made, hmade⟩ := run.decisions_suffix hq
    rcases (Call.effect hq step).quiet_or_decided with hquiet | ⟨m, way, d, hdecided⟩
    · obtain ⟨hreclaim, hlives⟩ := ih (hquiet.decisions.symm.trans hsame)
      exact ⟨hquiet.reclaim.trans hreclaim, fun i hi => hquiet.lives i (hlives i hi)⟩
    · -- a decision would make the list longer than it was in the beginning
      have hlonger : k₂.decisions = d :: k₁.decisions := hdecided.decisions
      have hlength := congrArg List.length (hlonger.symm.trans hsame)
      rw [hmade, List.length_cons, List.length_append] at hlength
      omega

end RoundRobin
