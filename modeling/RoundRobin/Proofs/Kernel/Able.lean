import RoundRobin.Proofs.Kernel.Accounts
import RoundRobin.Proofs.Kernel.Slice
import RoundRobin.Proofs.Tables.Progress

/-!
# What a started kernel can rely on

Three invariants of runs beside the accounts: the counts stay within what happened so far, no handler
runs between two calls, and as long as the idle thread does not exit it lives. A started kernel that has
all of this is `Able`: nothing but its callers can stop it.
-/

namespace RoundRobin

variable {C : Client} {hooks : Hooks C}

namespace Core

variable {s : Core C}

/-! ## Counts -/

/-- Charged ticks are ticks, switches are decisions, and the handler is over. -/
structure Counted (s : Core C) : Prop where
  stats : s.tables.stats.idle + s.tables.stats.kernel + s.tables.stats.user ≤ s.ticks
  counted : s.tables.switches ≤ s.decisions.length
  carriedOut : s.switches ≤ s.decisions.length
  outside : s.inInterrupt = false

/-- A tick is charged once. -/
theorem stats_of_tick {β : Type} {t t' : Tables β} {user asks : Bool} {now timeSlice : Nat}
    (h : t.tick user now timeSlice = .ok (asks, t')) :
    t'.stats.idle + t'.stats.kernel + t'.stats.user
      = t.stats.idle + t.stats.kernel + t.stats.user + 1 := by
  rw [Tables.stats_of_tick h, TickStats.sum_plus]

theorem Counted.left {way : Way} {d : Dispatch} {t : Tables C.Body} (h : Counted s)
    (ht : s.tables.leave way = .ok (d, t)) : Counted (s.left d t) := by
  have hparting := Tables.parting_of_leave ht
  have hcounted := h.counted
  have hcarried := h.carriedOut
  constructor
  · show t.stats.idle + t.stats.kernel + t.stats.user ≤ s.ticks
    rw [hparting.stats]
    exact h.stats
  · show t.switches ≤ s.decisions.length + 1
    rw [hparting.switches]
    split <;> omega
  · show (if d.previous = d.next then s.switches else s.switches + 1) ≤ s.decisions.length + 1
    split <;> omega
  · exact h.outside

theorem kept_counted : Kept (Counted (C := C)) where
  later h _ := ⟨Nat.le_succ_of_le h.stats, h.counted, h.carriedOut, h.outside⟩
  adopted h _ := ⟨h.stats, h.counted, h.carriedOut, h.outside⟩
  hired h _ _ := ⟨h.stats, h.counted, h.carriedOut, h.outside⟩
  appointed h _ _ _ := ⟨h.stats, h.counted, h.carriedOut, h.outside⟩
  unblocked h ht := by
    have hrest := Tables.rest_of_unblock ht
    rw [hrest]
    exact ⟨h.stats, h.counted, h.carriedOut, h.outside⟩
  left h _ ht := h.left ht
  prioritized h _ := ⟨h.stats, h.counted, h.carriedOut, h.outside⟩
  ticked {s user asks t} h _ _ ht := by
    have hstats := stats_of_tick ht
    have hswitches : t.switches = s.tables.switches := by rw [Tables.rest_of_tick ht]
    have hbefore := h.stats
    refine ⟨?_, ?_, h.carriedOut, h.outside⟩
    · show t.stats.idle + t.stats.kernel + t.stats.user ≤ s.ticks + 1
      omega
    · exact Nat.le_trans (Nat.le_of_eq hswitches) h.counted
  preempted h ht := by
    have hleft := h.left ht
    exact ⟨hleft.stats, hleft.counted, hleft.carriedOut, hleft.outside⟩

/-! ## Threads and pages -/

/-- The accounts, and an idle thread that is alive once there is one. -/
structure Manned (s : Core C) : Prop where
  accounted : s.Accounted
  attended : s.spawns < Word.top → s.tables.Attended

/-- The idle thread does not exit. -/
def idleStays (s : Core C) (way : Way) : Prop := way = .exit → s.tables.idleRuns = false

theorem Manned.left {way : Way} {d : Dispatch} {t : Tables C.Body} (h : Manned s)
    (hway : idleStays s way) (ht : s.tables.leave way = .ok (d, t)) : Manned (s.left d t) := by
  have hcurrent := (Tables.parting_of_leave ht).previous
  exact ⟨kept_accounted.left h.accounted trivial ht, fun hroom =>
    (h.attended hroom).leave (h.accounted.coherent.sound_of_current hroom hcurrent) ht hway⟩

/-- Every step keeps the idle thread alive. -/
theorem kept_manned : KeptUnder idleStays (Manned (C := C)) where
  later h hroom := ⟨kept_accounted.later h.accounted hroom, h.attended⟩
  adopted {s} h hfresh := by
    refine ⟨kept_accounted.adopted h.accounted hfresh, fun hroom i hi => ?_⟩
    -- a kernel that adopts the thread that boots has no idle thread yet
    have hnone : s.tables.idle = none := (h.accounted.coherent.blank hroom hfresh).idle
    have hsome : s.tables.idle = some i := hi
    rw [hnone] at hsome
    cases hsome
  hired {s} _ _ _ _ _ h hup hpool := ⟨kept_accounted.hired h.accounted hup hpool, fun hroom => by
    have hless : s.spawns + 1 < Word.top := hroom
    exact (h.attended (by omega)).inserted rfl⟩
  appointed {s name priority entry page pool} h hup hfirst hpool := by
    refine ⟨kept_accounted.appointed h.accounted hup hfirst hpool, fun hroom i hi => ?_⟩
    cases hi
    refine ⟨Kernel.freshThread s.image s.nextId name priority page entry, ?_, nofun⟩
    exact (ThreadTable.find?_insert _ _ _).trans (if_pos rfl)
  unblocked h ht := ⟨kept_accounted.unblocked h.accounted ht,
    fun hroom => (h.attended hroom).unblock ht⟩
  left h hway ht := h.left hway ht
  prioritized {s id priority} h hc := by
    refine ⟨kept_accounted.prioritized h.accounted hc, fun hroom i hi => ?_⟩
    obtain ⟨th, hth, halive⟩ := h.attended hroom i hi
    refine ⟨_, (Tables.find?_modifyThread (f := fun th => { th with priority }) (fun _ => rfl) i).trans
      (by rw [hth, Option.map_some]), ?_⟩
    split
    · exact halive
    · exact halive
  ticked h hup hroom ht := ⟨kept_accounted.ticked h.accounted hup hroom ht,
    fun hspawns => (h.attended hspawns).tick ht⟩
  preempted {s d t} h ht := by
    -- an interrupt can only yield, so nobody exits
    have hstays : idleStays s .yield := nofun
    exact ⟨kept_accounted.preempted h.accounted ht, (h.left hstays ht).attended⟩

/-! ## Able cores -/

/-- An initialized core between two calls, whose tables can be read. -/
structure Upright (s : Core C) : Prop where
  up : s.initialized = true
  outside : s.inInterrupt = false
  readable : s.tables.Readable

/-- If a yield goes over to another thread, it can be counted. -/
def CanSwitch (s : Core C) : Prop :=
  ∀ c, s.tables.current = some c → (s.tables.marked .yield c).upNext ≠ some c →
    s.tables.switches < Word.top ∧ s.switches < Word.top

/-- A core that was started and whose idle thread is alive, before its counts come to their last words. -/
structure Able (s : Core C) : Prop extends Upright s where
  attended : s.tables.Attended
  idle : s.tables.idle.isSome = true
  counted : s.tables.switches < Word.top
  carriedOut : s.switches < Word.top

theorem Able.canSwitch (h : Able s) : CanSwitch s := fun _ _ _ => ⟨h.counted, h.carriedOut⟩

/-- Once it was started, a core that is manned and well counted is able. -/
theorem Manned.able (h : Manned s) (hcounted : Counted s) (hticks : s.ticks ≤ Word.top)
    (hstarted : s.started = true) (hspawns : s.spawns < Word.top)
    (hdecisions : s.decisions.length < Word.top) : Able s := by
  have hcoherent := h.accounted.coherent
  have hup : s.initialized = true := by
    refine hcoherent.up hspawns fun hblank => ?_
    rw [hblank.started] at hstarted
    cases hstarted
  have hrecorded := hcoherent.recorded hspawns hup
  exact ⟨⟨hup, hcounted.outside, hrecorded.sound, (h.accounted.balanced hspawns).housed,
    Nat.le_trans hcounted.stats hticks⟩, h.attended hspawns, hrecorded.idle.trans hstarted,
    Nat.lt_of_le_of_lt hcounted.counted hdecisions,
    Nat.lt_of_le_of_lt hcounted.carriedOut hdecisions⟩

/-- After a tick, and with no yield pending, an upright core is upright still. -/
theorem Upright.ticked {user asks : Bool} {t : Tables C.Body} (h : Upright s)
    (hstats : s.tables.stats.idle + s.tables.stats.kernel + s.tables.stats.user < Word.top)
    (ht : s.tables.tick user (s.ticks + 1) s.config.timeSlice = .ok (asks, t)) :
    Upright (s.ticked asks t).answered := by
  have hcharged := stats_of_tick ht
  have hreadable : t.Readable :=
    ⟨h.readable.sound.tick ht, h.readable.housed.steady (Tables.steady_tick ht), by omega⟩
  exact ⟨h.up, h.outside, hreadable⟩

/-- A tick switches nothing. -/
theorem Ticked.canSwitch {s' : Core C} (h : Ticked s s') (hcounted : s.tables.switches < Word.top)
    (hcarried : s.switches < Word.top) : CanSwitch s' := by
  intro _ _ _
  cases h with
  | early => exact ⟨hcounted, hcarried⟩
  | @full user asks t _ ht =>
    have hsame : t.switches = s.tables.switches := by rw [Tables.rest_of_tick ht]
    exact ⟨Nat.lt_of_le_of_lt (Nat.le_of_eq hsame) hcounted, hcarried⟩

end Core

variable {config : Config} {client : C.State} {k₀ k : Kernel C} {calls : List (Call C.Body)}

/-! ## Orderly runs -/

/-- Interrupts are delivered whole, and the idle thread does not exit. -/
def Kernel.admits (k : Kernel C) : Call C.Body → Bool
  | .timerInterrupt => false
  | .exit => !k.tables.idleRuns
  | _ => true

/-- A call that an orderly run may make. -/
def orderly (k : Kernel C) (c : Call C.Body) : Prop := k.admits c = true

theorem idleStays_of_orderly {c : Call C.Body} (h : orderly k c) {way : Way}
    (hway : way = .exit → c = .exit) : k.core.idleStays way := by
  intro hexit
  rw [hway hexit] at h
  exact (Bool.not_eq_true' _).mp h

theorem Run.whole_of_orderly (hrun : Run hooks orderly k₀ calls k) : .timerInterrupt ∉ calls := by
  induction hrun with
  | nil => exact nofun
  | snoc _ may _ ih =>
    rw [List.mem_append, not_or, List.mem_singleton]
    refine ⟨ih, fun heq => ?_⟩
    rw [← heq] at may
    cases may

/-- In a new kernel nothing is counted, and there is no idle thread. -/
theorem Kernel.manned_of_ofConfig (h : Kernel.ofConfig config client = .ok k) :
    k.core.Counted ∧ k.core.Manned := by
  have haccounted := accounted_of_ofConfig h
  obtain ⟨_, _, rfl⟩ := eq_of_ofConfig h
  exact ⟨⟨Nat.le_refl _, Nat.le_refl _, Nat.le_refl _, rfl⟩, haccounted, fun _ => nofun⟩

theorem Run.counted {allowed : Kernel C → Call C.Body → Prop} (hq : hooks.QueryOnly)
    (h₀ : Kernel.ofConfig config client = .ok k₀) (hrun : Run hooks allowed k₀ calls k) :
    k.core.Counted :=
  hrun.keeps hq Core.kept_counted (Kernel.manned_of_ofConfig h₀).1

/-- Every run that initialized the kernel leaves an upright core, until the clock comes to its last
tick. -/
theorem Run.upright {allowed : Kernel C → Call C.Body → Prop} (hq : hooks.QueryOnly)
    (h₀ : Kernel.ofConfig config client = .ok k₀) (hrun : Run hooks allowed k₀ calls k)
    (hup : k.initialized = true) (hticks : k.clock.ticks < Word.top) (hspawns : k.spawns < Word.top) :
    k.core.Upright ∧
      k.tables.stats.idle + k.tables.stats.kernel + k.tables.stats.user < Word.top := by
  have hcounts := hrun.counted hq h₀
  have haccounted := hrun.accounted hq h₀
  have hrecorded := haccounted.coherent.recorded hspawns hup
  have hhoused := (haccounted.balanced hspawns).housed
  have hstats : k.tables.stats.idle + k.tables.stats.kernel + k.tables.stats.user
      ≤ k.clock.ticks := hcounts.stats
  have hreadable : k.tables.Readable := ⟨hrecorded.sound, hhoused, by omega⟩
  exact ⟨⟨hup, hcounts.outside, hreadable⟩, by omega⟩

/-- Every orderly run that started the kernel leaves an able core, whose slice is not used up. -/
theorem Run.able (hq : hooks.QueryOnly) (h₀ : Kernel.ofConfig config client = .ok k₀)
    (hrun : Run hooks orderly k₀ calls k) (hstarted : k.started = true)
    (hticks : k.clock.ticks < Word.top) (hspawns : k.spawns < Word.top)
    (hdecisions : k.decisions.length < Word.top) :
    k.core.Able ∧ k.tables.sliceTicks < config.timeSlice ∧
      k.tables.stats.idle + k.tables.stats.kernel + k.tables.stats.user < Word.top := by
  -- that the idle thread does not exit is needed for `Manned`, and whole interrupts for `Paced`
  have hcounted := hrun.counted hq h₀
  have hmanned : k.core.Manned := hrun.keeps_of_may hq Core.kept_manned
    (fun _ _ may _ htaken => idleStays_of_orderly may htaken.exits) (Kernel.manned_of_ofConfig h₀).2
  have hpaced := (hrun.paced hq hrun.whole_of_orderly (Kernel.paced_of_ofConfig h₀)).1
  have hable : k.core.Able :=
    hmanned.able hcounted (Nat.le_of_lt hticks) hstarted hspawns hdecisions
  exact ⟨hable, hrun.config_eq hq h₀ ▸ hpaced.slice, Nat.lt_of_le_of_lt hcounted.stats hticks⟩

end RoundRobin
