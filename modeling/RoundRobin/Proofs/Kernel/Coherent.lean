import RoundRobin.Proofs.Kernel.Effect
import RoundRobin.Proofs.Tables.Frame

/-!
# The invariant of runs

The tables are `Sound` from the moment at which the kernel is initialized. `Coherent` adds what the
next id and the flags have to do with them: before that moment the core is `Blank`, and from then on
it is `Recorded`. Every step preserves this, so long as there are fresh ids.
-/

namespace RoundRobin

variable {C : Client} {hooks : Hooks C}

namespace Core

/-! ## The invariant of runs -/

/-- Nothing was done yet. -/
structure Blank (s : Core C) : Prop where
  threads : s.tables.threads = .empty
  ready : s.tables.ready.ids = []
  sleepers : s.tables.sleepers.sleepers = []
  reclaim : s.tables.reclaim = []
  current : s.tables.current = none
  idle : s.tables.idle = none
  boot : s.tables.boot = none
  started : s.started = false
  nextId : s.nextId = .first
  spawns : s.spawns = 0

/-- Something was done, and all of it was recorded. -/
structure Recorded (s : Core C) : Prop where
  sound : s.tables.Sound
  idle : s.tables.idle.isSome = s.started
  nextId : s.nextId.val = Word.saturate (s.spawns + 2)
  /-- Ids are handed out from one, and the thread that booted has the first. -/
  known : ∀ id th, s.tables.threads.find? id = some th → id.val ≤ s.spawns + 1

/-- What holds of a core that made fewer threads than there are ids. -/
structure Coherent (s : Core C) : Prop where
  blank : s.spawns < Word.top → s.initialized = false → Blank s
  recorded : s.spawns < Word.top → s.initialized = true → Recorded s

variable {s : Core C}

theorem Coherent.of_recorded (hup : s.initialized = true)
    (h : s.spawns < Word.top → Recorded s) : Coherent s :=
  ⟨fun _ hdown => absurd (hup.symm.trans hdown) nofun, fun hroom _ => h hroom⟩

/-- Once something was done, the core is initialized. -/
theorem Coherent.up (h : Coherent s) (hroom : s.spawns < Word.top) (hdone : ¬ Blank s) :
    s.initialized = true := by
  cases hup : s.initialized with
  | true => rfl
  | false => exact absurd (h.blank hroom hup) hdone

/-- Nobody runs before the kernel is initialized. -/
theorem Coherent.up_of_current {id : ThreadId} (h : Coherent s) (hroom : s.spawns < Word.top)
    (hc : s.tables.current = some id) : s.initialized = true := by
  refine h.up hroom fun hblank => ?_
  rw [hblank.current] at hc
  cases hc

/-- Where somebody runs, the tables are sound. -/
theorem Coherent.sound_of_current {id : ThreadId} (h : Coherent s) (hroom : s.spawns < Word.top)
    (hc : s.tables.current = some id) : s.tables.Sound :=
  (h.recorded hroom (h.up_of_current hroom hc)).sound

/-- Whether something was done already or not, each thread is in the table once. -/
theorem Coherent.distinct (h : Coherent s) (hroom : s.spawns < Word.top) :
    s.tables.threads.Distinct := by
  cases hup : s.initialized with
  | true => exact (h.recorded hroom hup).sound.distinct
  | false =>
    rw [(h.blank hroom hup).threads]
    exact ThreadTable.distinct_empty

/-- A change of the tables that makes no thread keeps what is recorded. -/
theorem Recorded.change {t : Tables C.Body} {s' : Core C} (h : Recorded s) (hs' : s'.tables = t)
    (hsound : t.Sound) (hsurvive : s.tables.Survive t) (hidle : t.idle = s.tables.idle)
    (hstarted : s'.started = s.started) (hnext : s'.nextId = s.nextId)
    (hspawns : s'.spawns = s.spawns) : Recorded s' := by
  subst hs'
  refine ⟨hsound, ?_, ?_, fun id th hth => ?_⟩
  · rw [hidle, hstarted]; exact h.idle
  · rw [hnext, hspawns]; exact h.nextId
  · obtain ⟨th₀, hth₀, _⟩ := hsurvive id th hth
    rw [hspawns]
    exact h.known id th₀ hth₀

/-- The next id is free. -/
theorem Recorded.fresh (h : Recorded s) (hroom : s.spawns + 1 < Word.top) :
    s.tables.threads.find? s.nextId = none := by
  have hnext := h.nextId
  rw [Word.saturate_eq_self (by omega)] at hnext
  cases hfind : s.tables.threads.find? s.nextId with
  | none => rfl
  | some th =>
    -- ids in use are at most one more than the spawns, and the next id is two more
    have := h.known s.nextId th hfind
    omega

/-- A hired thread is recorded. -/
theorem Recorded.hired {name : String} {priority : Nat} {entry : Entry C.Body} {page : Page}
    {pool : PagePool} (h : Recorded s) (hroom : s.spawns + 1 < Word.top) :
    Recorded (s.hired name priority entry page pool) := by
  have hfresh := h.fresh hroom
  have hnext := h.nextId
  rw [Word.saturate_eq_self (by omega)] at hnext
  refine ⟨h.sound.inserted hfresh rfl rfl, h.idle, ?_, fun id th hth => ?_⟩
  · show Word.saturate (s.nextId.val + 1) = Word.saturate (s.spawns + 1 + 2)
    rw [hnext]
  · replace hth := (ThreadTable.find?_insert _ _ _).symm.trans hth
    split at hth
    · next hid =>
      rw [hid]
      show s.nextId.val ≤ s.spawns + 1 + 1
      omega
    · have := h.known id th hth
      show id.val ≤ s.spawns + 1 + 1
      omega

/-- So is a hired thread that is appointed, if there was no idle thread. -/
theorem Recorded.appointed {name : String} {priority : Nat} {entry : Entry C.Body} {page : Page}
    {pool : PagePool} (h : Recorded s) (hroom : s.spawns + 1 < Word.top)
    (hfirst : s.started = false) :
    Recorded ((s.hired name priority entry page pool).appointed s.nextId) := by
  have hhired : Recorded (s.hired name priority entry page pool) := h.hired hroom
  have hnone : s.tables.idle = none := by
    rw [← Option.not_isSome_iff_eq_none, h.idle, hfirst]
    exact nofun
  have hfind : (s.hired name priority entry page pool).tables.threads.find? s.nextId
      = some (Kernel.freshThread s.image s.nextId name priority page entry) :=
    (ThreadTable.find?_insert _ _ _).trans (if_pos rfl)
  exact ⟨hhired.sound.appointed hnone hfind rfl rfl, rfl, hhired.nextId, hhired.known⟩

theorem Blank.adopted (h : Blank s) : Recorded s.adopted := by
  refine ⟨Tables.sound_adopted h.threads h.ready h.sleepers h.reclaim rfl rfl, ?_, ?_,
    fun id th hth => ?_⟩
  · show s.tables.idle.isSome = s.started
    rw [h.idle, h.started]
    rfl
  · show s.nextId.next.val = Word.saturate (s.spawns + 2)
    rw [h.nextId, h.spawns]
    rfl
  · replace hth := (ThreadTable.find?_insert _ _ _).symm.trans hth
    split at hth
    · next hid =>
      have hone : id.val = 1 := by rw [hid]; exact congrArg ThreadId.val h.nextId
      show id.val ≤ s.spawns + 1
      omega
    · rw [h.threads] at hth
      cases hth

/-- Every decision keeps what is recorded. -/
theorem Recorded.left {way : Way} {d : Dispatch} {t : Tables C.Body} (h : Recorded s)
    (ht : s.tables.leave way = .ok (d, t)) : Recorded (s.left d t) := by
  have hparting := Tables.parting_of_leave ht
  exact h.change rfl (h.sound.leave ht) hparting.survive hparting.idle rfl rfl rfl

/-- Every step keeps a core coherent. -/
theorem kept_coherent : Kept (Coherent (C := C)) where
  later {s} h _ := by
    refine ⟨fun hroom hdown => ?_, fun hroom hup => ?_⟩
    · have hblank := h.blank hroom hdown
      exact ⟨hblank.threads, hblank.ready, hblank.sleepers, hblank.reclaim, hblank.current,
        hblank.idle, hblank.boot, hblank.started, hblank.nextId, hblank.spawns⟩
    · exact (h.recorded hroom hup).change rfl (h.recorded hroom hup).sound (.refl _) rfl rfl rfl rfl
  adopted h hfresh := .of_recorded rfl fun hroom => (h.blank hroom hfresh).adopted
  hired {s} _ _ _ _ _ h hup _ := .of_recorded hup fun hroom => by
    have hless : s.spawns + 1 < Word.top := hroom
    exact (h.recorded (by omega) hup).hired hless
  appointed {s} _ _ _ _ _ h hup hfirst _ := .of_recorded hup fun hroom => by
    have hless : s.spawns + 1 < Word.top := hroom
    exact (h.recorded (by omega) hup).appointed hless hfirst
  unblocked {s} id t h ht := by
    refine ⟨fun hroom hdown => ?_, fun hroom hup => ?_⟩
    · -- there is nobody to unblock yet
      obtain ⟨⟨th, hth, _⟩, _⟩ := Tables.unblock_eq_ok_iff.mp ht
      rw [(h.blank hroom hdown).threads] at hth
      cases hth
    · have hrec := h.recorded hroom hup
      exact hrec.change rfl (hrec.sound.unblock ht) (Tables.steady_unblock ht).survive
        (by rw [Tables.rest_of_unblock ht]) rfl rfl rfl
  left h _ ht := by
    refine ⟨fun hroom hdown => ?_, fun hroom hup => (h.recorded hroom hup).left ht⟩
    have hnone := (h.blank hroom hdown).current
    rw [(Tables.parting_of_leave ht).previous] at hnone
    cases hnone
  prioritized {s} id priority h hc := by
    refine ⟨fun hroom hdown => ?_, fun hroom hup => ?_⟩
    · have hnone := (h.blank hroom hdown).current
      rw [hc] at hnone
      cases hnone
    · have hrec := h.recorded hroom hup
      exact hrec.change rfl hrec.sound.prioritized
        (Tables.survive_modifyThread (f := fun th => { th with priority })
          fun _ => ⟨rfl, rfl, rfl, rfl, rfl, rfl⟩) rfl rfl rfl rfl
  ticked h hup _ ht := .of_recorded hup fun hroom => by
    have hrec := h.recorded hroom hup
    exact hrec.change rfl (hrec.sound.tick ht) (Tables.steady_tick ht).survive
      (by rw [Tables.rest_of_tick ht]; rfl) rfl rfl rfl
  preempted h ht := by
    refine ⟨fun hroom hdown => ?_, fun hroom hup => ?_⟩
    · have hnone := (h.blank hroom hdown).current
      rw [(Tables.parting_of_leave ht).previous] at hnone
      cases hnone
    · have hleft := (h.recorded hroom hup).left ht
      exact ⟨hleft.sound, hleft.idle, hleft.nextId, hleft.known⟩

end Core

/-! ## Every run -/

theorem Kernel.coherent_of_ofConfig {config : Config} {client : C.State} {k : Kernel C}
    (h : Kernel.ofConfig config client = .ok k) : k.core.Coherent := by
  obtain ⟨_, _, rfl⟩ := eq_of_ofConfig h
  exact ⟨fun _ _ => ⟨rfl, rfl, rfl, rfl, rfl, rfl, rfl, rfl, rfl, rfl⟩, nofun⟩

/-- Every run leaves a coherent core. -/
theorem Run.coherent {allowed : Kernel C → Call C.Body → Prop} {config : Config} {client : C.State}
    {k₀ k : Kernel C} {calls : List (Call C.Body)} (hq : hooks.QueryOnly)
    (h₀ : Kernel.ofConfig config client = .ok k₀) (hrun : Run hooks allowed k₀ calls k) :
    k.core.Coherent :=
  hrun.keeps hq Core.kept_coherent (Kernel.coherent_of_ofConfig h₀)

end RoundRobin
