import RoundRobin.Proofs.Kernel.Alike
import RoundRobin.Proofs.Kernel.Core

/-!
# Advisory data

Names, priorities and the answers of a process layer are advisory: they are kept, shown and counted, and
no decision depends on them. Two runs that differ in nothing else go the same way, call by call.
-/

namespace RoundRobin

variable {C : Client} {β : Type}

/-! ## Runs that differ in advisory data -/

/-- Two lists of calls that differ in advisory data, and in when a process layer is installed, if it is
at all. -/
inductive Call.AllAlike {β : Type} : List (Call β) → List (Call β) → Prop where
  | nil : AllAlike [] []
  | cons {c₁ c₂ : Call β} {calls₁ calls₂ : List (Call β)} (head : c₁.Alike c₂)
      (tail : AllAlike calls₁ calls₂) : AllAlike (c₁ :: calls₁) (c₂ :: calls₂)
  | installedFirst {calls₁ calls₂ : List (Call β)} (tail : AllAlike calls₁ calls₂) :
      AllAlike (.installHooks :: calls₁) calls₂
  | installedSecond {calls₁ calls₂ : List (Call β)} (tail : AllAlike calls₁ calls₂) :
      AllAlike calls₁ (.installHooks :: calls₂)

variable {hooks₁ hooks₂ : Hooks C} {allowed₁ allowed₂ : Kernel C → Call C.Body → Prop}
  {calls₁ calls₂ : List (Call C.Body)} {k₁ k₂ k₁' k₂' : Kernel C}

theorem Run.alike (hq₁ : hooks₁.QueryOnly) (hq₂ : hooks₂.QueryOnly)
    (hcalls : Call.AllAlike calls₁ calls₂) (hrun₁ : Run hooks₁ allowed₁ k₁ calls₁ k₁')
    (hrun₂ : Run hooks₂ allowed₂ k₂ calls₂ k₂') (h : k₁.Alike k₂) : k₁'.Alike k₂' := by
  induction hcalls generalizing k₁ k₂ with
  | nil =>
    rw [hrun₁.eq_of_nil, hrun₂.eq_of_nil]
    exact h
  | cons head _ ih =>
    obtain ⟨r₁, m₁, hstep₁, hrest₁⟩ := hrun₁.uncons
    obtain ⟨r₂, m₂, hstep₂, hrest₂⟩ := hrun₂.uncons
    exact ih hrest₁ hrest₂ (Call.agree hq₁ hq₂ head h hstep₁ hstep₂).2
  | installedFirst _ ih =>
    obtain ⟨r₁, m₁, hstep₁, hrest₁⟩ := hrun₁.uncons
    exact ih hrest₁ hrun₂ ((Call.bare_of_installHooks hstep₁).trans h)
  | installedSecond _ ih =>
    obtain ⟨r₂, m₂, hstep₂, hrest₂⟩ := hrun₂.uncons
    exact ih hrun₁ hrest₂ (h.trans (Call.bare_of_installHooks hstep₂).symm)

/-! ## What alike kernels have in common -/

/-- All that is not advisory, and all that a kernel answers but for names and priorities. -/
structure Kernel.SameSchedule (k₁ k₂ : Kernel C) : Prop where
  config : k₁.config = k₂.config
  current : k₁.tables.current = k₂.tables.current
  idle : k₁.tables.idle = k₂.tables.idle
  ready : k₁.tables.ready.ids = k₂.tables.ready.ids
  sleepers : k₁.tables.sleepers = k₂.tables.sleepers
  nextWake : k₁.nextWake = k₂.nextWake
  statusOf : ∀ id, k₁.statusOf id = k₂.statusOf id
  statuses : k₁.statuses = k₂.statuses
  counts : k₁.tables.threads.counts = k₂.tables.threads.counts
  pendingReclaim : k₁.pendingReclaim = k₂.pendingReclaim
  pool : k₁.tables.pool = k₂.tables.pool
  now : k₁.now = k₂.now
  sliceTicks : k₁.tables.sliceTicks = k₂.tables.sliceTicks
  switches : k₁.tables.switches = k₂.tables.switches
  /-- Switches that the processor carried out. -/
  switched : k₁.cpu.switches = k₂.cpu.switches
  level : Maskable.level k₁.cpu = Maskable.level k₂.cpu
  inInterrupt : k₁.inInterrupt = k₂.inInterrupt
  idleTicks : k₁.tables.stats.idle = k₂.tables.stats.idle
  /-- How many of them were spent in user programs may differ. -/
  busyTicks : k₁.tables.stats.kernel + k₁.tables.stats.user
    = k₂.tables.stats.kernel + k₂.tables.stats.user
  totalTicks : k₁.tables.stats.total = k₂.tables.stats.total
  handle : k₁.currentHandle.map (·.id) = k₂.currentHandle.map (·.id)
  handleOf : ∀ id, (k₁.handleOf id).map (·.id) = (k₂.handleOf id).map (·.id)

theorem TickStats.total_eq (s : TickStats) :
    s.total = if s.idle + s.kernel + s.user ≤ Word.top then .ok (s.idle + s.kernel + s.user)
      else .error .addOverflow := by
  unfold total
  by_cases h : s.idle + s.kernel ≤ Word.top
  · rw [checkedAdd_eq_ok h]
    rfl
  · rw [show checkedAdd s.idle s.kernel = .error .addOverflow from if_neg h, if_neg (by omega)]
    rfl

theorem ThreadTable.counts_stripped (table : ThreadTable β) : table.stripped.counts = table.counts := by
  have hcount : ∀ s, table.stripped.count s = table.count s := by
    intro s
    unfold count stripped
    rw [List.countP_map]
    rfl
  unfold counts
  rw [hcount, hcount, hcount, hcount]

namespace Kernel.Alike

/-- Threads that differ in advisory data are found under the same ids. -/
theorem find? (h : k₁.Alike k₂) (id : ThreadId) :
    (k₁.tables.threads.find? id).map Thread.stripped
      = (k₂.tables.threads.find? id).map Thread.stripped := by
  rw [← Tables.find?_stripped, ← Tables.find?_stripped, h.tables]

theorem statusOf (h : k₁.Alike k₂) (id : ThreadId) : k₁.statusOf id = k₂.statusOf id := by
  have hfind := congrArg (Option.map (·.status)) (h.find? id)
  rw [Option.map_map, Option.map_map] at hfind
  exact hfind

theorem handleOf (h : k₁.Alike k₂) (id : ThreadId) :
    (k₁.handleOf id).map (·.id) = (k₂.handleOf id).map (·.id) := by
  have hfind := congrArg (Option.map (·.id)) (h.find? id)
  rw [Option.map_map, Option.map_map] at hfind
  unfold Kernel.handleOf
  rw [Option.map_map, Option.map_map]
  exact hfind

theorem thread (h : k₁.Alike k₂) (id : ThreadId) :
    (∃ e, k₁.tables.thread id = .error e ∧ k₂.tables.thread id = .error e) ∨
      ∃ th₁ th₂, k₁.tables.thread id = .ok th₁ ∧ k₂.tables.thread id = .ok th₂ ∧
        th₁.stripped = th₂.stripped := by
  have hfind := h.find? id
  unfold Tables.thread
  cases h₁ : k₁.tables.threads.find? id <;> cases h₂ : k₂.tables.threads.find? id
  · exact .inl ⟨_, rfl, rfl⟩
  · rw [h₁, h₂] at hfind
    cases hfind
  · rw [h₁, h₂] at hfind
    cases hfind
  · rw [h₁, h₂, Option.map_some, Option.map_some, Option.some.injEq] at hfind
    exact .inr ⟨_, _, rfl, rfl, hfind⟩

theorem handle (h : k₁.Alike k₂) :
    k₁.currentHandle.map (·.id) = k₂.currentHandle.map (·.id) := by
  unfold currentHandle currentThread Tables.currentId
  rw [h.initialized, h.current]
  split
  · rfl
  · cases k₂.tables.current with
    | none => rfl
    | some c =>
      rcases h.thread c with ⟨e, h₁, h₂⟩ | ⟨th₁, th₂, h₁, h₂, hth⟩
      · simp only [bind, Except.bind, h₁, h₂]
      · have hid : th₁.id = th₂.id := congrArg (fun th => th.id) hth
        have hintact : th₁.isIntact = th₂.isIntact := congrArg (fun th => th.isIntact) hth
        have hstatus : th₁.status = th₂.status := congrArg (fun th => th.status) hth
        simp only [bind, Except.bind, h₁, h₂, hid, hintact, hstatus]
        split
        · rfl
        · split
          · rfl
          · exact congrArg Except.ok hid

theorem sameSchedule (h : k₁.Alike k₂) : k₁.SameSchedule k₂ := by
  have htables := h.tables
  have hsleepers : k₁.tables.sleepers = k₂.tables.sleepers :=
    congrArg (fun s => s.tables.sleepers) h
  have hidle : k₁.tables.stats.idle = k₂.tables.stats.idle :=
    congrArg (fun s => s.tables.stats.idle) h
  have hbusy : k₁.tables.stats.kernel + k₁.tables.stats.user
      = k₂.tables.stats.kernel + k₂.tables.stats.user := congrArg (fun s => s.tables.stats.kernel) h
  constructor
  case config => exact h.config
  case current => exact h.current
  case idle => exact h.idle
  case ready => exact congrArg (fun s => s.tables.ready.ids) h
  case sleepers => exact hsleepers
  case nextWake => rw [nextWake, nextWake, hsleepers]
  case statusOf => exact h.statusOf
  case statuses => rw [statuses, statuses, h.nextId, funext h.statusOf]
  case counts =>
    rw [← ThreadTable.counts_stripped, ← k₂.tables.threads.counts_stripped]
    exact congrArg (fun s => s.tables.threads.counts) h
  case pendingReclaim => exact congrArg (fun s => s.tables.reclaim.length) h
  case pool => exact h.pool
  case now => exact congrArg Clock.ticks h.clock
  case sliceTicks => exact congrArg (fun s => s.tables.sliceTicks) h
  case switches => exact congrArg (fun s => s.tables.switches) h
  case switched => exact congrArg FlagCpu.switches h.cpu
  case level => rw [h.cpu]
  case inInterrupt => exact h.inInterrupt
  case idleTicks => exact hidle
  case busyTicks => exact hbusy
  case totalTicks =>
    rw [TickStats.total_eq, TickStats.total_eq, Nat.add_assoc, Nat.add_assoc, hidle, hbusy]
  case handle => exact h.handle
  case handleOf => exact h.handleOf

end Kernel.Alike

/-! ## Advisory data are inert -/

/-- Take two runs from one configuration, with two process layers that only ask, whose calls differ in
names, in priorities and in when a process layer is installed. As far as they have come they are at the
same point of the same schedule, and a further call, again the same but for its name and its priority,
gives both the same result. -/
theorem advisory_data_is_inert {config : Config} {client₁ client₂ : C.State}
    (hq₁ : hooks₁.QueryOnly) (hq₂ : hooks₂.QueryOnly)
    (h₁ : Kernel.ofConfig config client₁ = .ok k₁) (h₂ : Kernel.ofConfig config client₂ = .ok k₂)
    (hcalls : Call.AllAlike calls₁ calls₂) (hrun₁ : Run hooks₁ allowed₁ k₁ calls₁ k₁')
    (hrun₂ : Run hooks₂ allowed₂ k₂ calls₂ k₂') :
    k₁'.SameSchedule k₂' ∧ ∀ (c₁ c₂ : Call C.Body) r₁ r₂ m₁ m₂, c₁.Alike c₂ →
      c₁.perform hooks₁ k₁' = .ok r₁ m₁ → c₂.perform hooks₂ k₂' = .ok r₂ m₂ → r₁ = r₂ := by
  obtain ⟨_, _, rfl⟩ := Kernel.eq_of_ofConfig h₁
  obtain ⟨_, _, rfl⟩ := Kernel.eq_of_ofConfig h₂
  have halike := hrun₁.alike hq₁ hq₂ hcalls hrun₂ rfl
  exact ⟨halike.sameSchedule, fun _ _ _ _ _ _ hc hstep₁ hstep₂ =>
    (Call.agree hq₁ hq₂ hc halike hstep₁ hstep₂).1⟩

/-- A process layer for which every thread runs a user program. -/
def userHooks : Hooks plainClient := { Hooks.plain with isUser _ := pure true }

theorem queryOnly_userHooks : userHooks.QueryOnly :=
  ⟨fun _ => Act.onlyAsks_pure (), fun _ => Act.onlyAsks_pure (), fun _ => Act.onlyAsks_pure true⟩

/-- One tick is charged to the kernel in one run and to a user program in the other one, and the running
thread has another priority; the schedule is the same. -/
theorem advisory_data_is_inert_two_names : ∃ k₁ k₂ : Kernel plainClient,
    plainKernel.after .plain (fun _ _ => true)
      [.init, .start, .create "editor" 63 (), .setPriority 5, .setLevel .off, .onTimerInterrupt,
        .yieldNow] = some k₁ ∧
    plainKernel.after userHooks (fun _ _ => true)
      [.init, .installHooks, .start, .create "shell" 0 (), .setPriority 99, .setLevel .off,
        .onTimerInterrupt, .yieldNow] = some k₂ ∧
    k₁.tables.stats = { kernel := 1 } ∧ k₂.tables.stats = { user := 1 } ∧ k₁.SameSchedule k₂ := by
  have hchecks : (plainKernel.after .plain (fun _ _ => true)
      [.init, .start, .create "editor" 63 (), .setPriority 5, .setLevel .off, .onTimerInterrupt,
        .yieldNow]).any (fun k => decide (k.tables.stats = { kernel := 1 })) = true ∧
    (plainKernel.after userHooks (fun _ _ => true)
      [.init, .installHooks, .start, .create "shell" 0 (), .setPriority 99, .setLevel .off,
        .onTimerInterrupt, .yieldNow]).any (fun k => decide (k.tables.stats = { user := 1 })) = true := by
    decide +kernel
  obtain ⟨k₁, hk₁, hstats₁⟩ := (Option.any_eq_true _ _).mp hchecks.1
  obtain ⟨k₂, hk₂, hstats₂⟩ := (Option.any_eq_true _ _).mp hchecks.2
  have hpriorities : Priority.Interchangeable 63 0 := .inr (by decide)
  obtain ⟨hsame, _⟩ := advisory_data_is_inert Hooks.queryOnly_plain queryOnly_userHooks
    ofConfig_standard ofConfig_standard
    (.cons (.same _) (.installedSecond (.cons (.same _) (.cons (.create _ _ hpriorities _)
      (.cons (.setPriority _ _) (.cons (.same _) (.cons (.same _) (.cons (.same _) .nil))))))))
    (Run.of_after hk₁) (Run.of_after hk₂)
  exact ⟨k₁, k₂, hk₁, hk₂, of_decide_eq_true hstats₁, of_decide_eq_true hstats₂, hsame⟩

end RoundRobin
