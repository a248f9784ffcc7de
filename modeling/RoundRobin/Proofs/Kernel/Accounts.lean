import RoundRobin.Proofs.Kernel.Coherent
import RoundRobin.Proofs.Tables.Ledger

/-!
# The accounts of a run

Threads are housed and the ledger of pages is balanced in every state, the thread that booted is never
removed, and at most one thread waits to be reclaimed. This needs no more than that there are fresh ids:
it does not matter who exits.
-/

namespace RoundRobin

variable {C : Client} {hooks : Hooks C}

/-- The thread that booted lives, and is not the idle thread. -/
def Tables.Rooted {β : Type} (t : Tables β) : Prop :=
  ∃ b, t.boot = some b ∧ (t.threads.find? b).isSome = true ∧ t.idle ≠ some b

theorem Tables.Rooted.idle_ne {β : Type} {t : Tables β} (h : t.Rooted) (b : ThreadId)
    (hb : t.boot = some b) : t.idle ≠ some b := by
  obtain ⟨b', hb', _, hne⟩ := h
  rw [hb, Option.some.injEq] at hb'
  exact hb' ▸ hne

namespace Core

variable {s s' : Core C}

/-- Threads and pages add up. -/
structure Balanced (s : Core C) : Prop where
  housed : s.tables.Housed
  ledger : s.tables.Ledger s.spawns
  capacity : s.tables.pool.capacity = s.config.maxThreads
  alone : s.tables.reclaim.length ≤ 1
  rooted : s.initialized = true → s.tables.Rooted

theorem Balanced.steady (h : Balanced s) (hsteady : s.tables.Steady s'.tables)
    (hidle : s'.tables.idle = s.tables.idle) (hconfig : s'.config = s.config)
    (hspawns : s'.spawns = s.spawns) (hup : s'.initialized = s.initialized) : Balanced s' := by
  refine ⟨h.housed.steady hsteady, ?_, ?_, ?_, fun hinit => ?_⟩
  · rw [hspawns]
    exact h.ledger.steady hsteady
  · rw [hsteady.pool, hconfig]
    exact h.capacity
  · rw [hsteady.reclaim]
    exact h.alone
  · obtain ⟨b, hb, hlives, hne⟩ := h.rooted (hup ▸ hinit)
    exact ⟨b, hsteady.boot.trans hb, (hsteady.lives b).trans hlives, hidle ▸ hne⟩

theorem Balanced.adopted (h : Balanced s) (hblank : Blank s) : Balanced s.adopted := by
  refine ⟨h.housed.adopted hblank.threads hblank.boot rfl rfl,
    h.ledger.adopted hblank.threads hblank.boot rfl, h.capacity, h.alone, fun _ => ?_⟩
  refine ⟨s.nextId, rfl, ?_, ?_⟩
  · show ((s.tables.threads.insert _).find? s.nextId).isSome = true
    rw [ThreadTable.lives_insert, Bool.or_eq_true_iff]
    exact .inl (decide_eq_true rfl)
  · show s.tables.idle ≠ _
    rw [hblank.idle]
    exact nofun

variable {name : String} {priority : Nat} {entry : Entry C.Body} {page : Page} {pool : PagePool}

/-- The thread that booted has no fresh id. -/
theorem Balanced.boot_ne_fresh (h : Balanced s) (hup : s.initialized = true)
    (hfresh : s.tables.threads.find? s.nextId = none) : s.tables.boot ≠ some s.nextId := by
  obtain ⟨b, hb, hlives, _⟩ := h.rooted hup
  intro heq
  rw [hb, Option.some.injEq] at heq
  rw [heq, hfresh] at hlives
  cases hlives

theorem Balanced.hired (h : Balanced s) (hup : s.initialized = true)
    (hfresh : s.tables.threads.find? s.nextId = none)
    (hpool : s.tables.pool.allocate = some (page, pool)) :
    Balanced (s.hired name priority entry page pool) := by
  have hboot := h.boot_ne_fresh hup hfresh
  refine ⟨h.housed.inserted hpool hfresh rfl rfl,
    h.ledger.inserted h.housed hpool hfresh rfl hboot, ?_, h.alone, fun _ => ?_⟩
  · obtain ⟨_, _, _, hrest⟩ := PagePool.of_allocate hpool
    show pool.capacity = s.config.maxThreads
    rw [hrest]
    exact h.capacity
  · obtain ⟨b, hb, hlives, hne⟩ := h.rooted hup
    exact ⟨b, hb, ThreadTable.lives_insert_of_lives hlives _, hne⟩

theorem Balanced.appointed (h : Balanced s) (hup : s.initialized = true)
    (hfresh : s.tables.threads.find? s.nextId = none)
    (hpool : s.tables.pool.allocate = some (page, pool)) :
    Balanced ((s.hired name priority entry page pool).appointed s.nextId) := by
  have hhired : Balanced (s.hired name priority entry page pool) := h.hired hup hfresh hpool
  have hsame : (s.hired name priority entry page pool).tables.Steady
      ((s.hired name priority entry page pool).appointed s.nextId).tables :=
    .of_threads rfl rfl rfl rfl rfl
  refine ⟨hhired.housed.steady hsame, hhired.ledger.steady hsame, hhired.capacity, hhired.alone,
    fun hup => ?_⟩
  obtain ⟨b, hb, hlives, _⟩ := hhired.rooted hup
  exact ⟨b, hb, hlives, fun hidle => h.boot_ne_fresh hup hfresh (hb.trans hidle.symm)⟩

theorem Balanced.left {way : Way} {d : Dispatch} {t : Tables C.Body} (h : Balanced s)
    (hroom : s.spawns < Word.top) (hsound : s.tables.Sound)
    (ht : s.tables.leave way = .ok (d, t)) : Balanced (s.left d t) := by
  have hparting := Tables.parting_of_leave ht
  refine ⟨h.housed.leave hsound ht, h.ledger.leave hsound h.housed h.alone hroom ht,
    (Tables.poolCapacity_of_leave hsound h.alone ht).trans h.capacity,
    Tables.length_reclaim_of_leave ht, fun hup => ?_⟩
  obtain ⟨b, hb, hlives, hne⟩ := h.rooted hup
  refine ⟨b, hparting.boot.trans hb, ?_, hparting.idle ▸ hne⟩
  rw [show (s.left d t).tables = t from rfl, Tables.lives_of_leave ht, hlives,
    decide_eq_true (hsound.boot_not_mem_reclaim hb)]
  rfl

/-- The accounts of a core, with the invariant that they need. -/
structure Accounted (s : Core C) : Prop where
  coherent : s.Coherent
  balanced : s.spawns < Word.top → Balanced s

/-- Every step keeps the accounts. -/
theorem kept_accounted : Kept (Accounted (C := C)) where
  later h hroom := ⟨kept_coherent.later h.coherent hroom,
    fun hspawns => (h.balanced hspawns).steady (.refl _) rfl rfl rfl rfl⟩
  adopted h hfresh := ⟨kept_coherent.adopted h.coherent hfresh,
    fun hspawns => (h.balanced hspawns).adopted (h.coherent.blank hspawns hfresh)⟩
  hired {s} _ _ _ _ _ h hup hpool := ⟨kept_coherent.hired h.coherent hup hpool, fun hspawns => by
    have hless : s.spawns + 1 < Word.top := hspawns
    have hfresh := (h.coherent.recorded (by omega) hup).fresh hless
    exact (h.balanced (by omega)).hired hup hfresh hpool⟩
  appointed {s} _ _ _ _ _ h hup hfirst hpool :=
    ⟨kept_coherent.appointed h.coherent hup hfirst hpool, fun hspawns => by
      have hless : s.spawns + 1 < Word.top := hspawns
      have hfresh := (h.coherent.recorded (by omega) hup).fresh hless
      exact (h.balanced (by omega)).appointed hup hfresh hpool⟩
  unblocked h ht := ⟨kept_coherent.unblocked h.coherent ht, fun hspawns =>
    (h.balanced hspawns).steady (Tables.steady_unblock ht) (by rw [Tables.rest_of_unblock ht])
      rfl rfl rfl⟩
  left h hmay ht := ⟨kept_coherent.left h.coherent hmay ht, fun hspawns =>
    (h.balanced hspawns).left hspawns
      (h.coherent.sound_of_current hspawns (Tables.parting_of_leave ht).previous) ht⟩
  prioritized {s id priority} h hc := ⟨kept_coherent.prioritized h.coherent hc, fun hspawns =>
    (h.balanced hspawns).steady (Tables.steady_modifyThread (f := fun th => { th with priority })
      fun _ => ⟨rfl, rfl, rfl, rfl, rfl, rfl⟩) rfl rfl rfl rfl⟩
  ticked h hup hroom ht := ⟨kept_coherent.ticked h.coherent hup hroom ht, fun hspawns =>
    (h.balanced hspawns).steady (Tables.steady_tick ht) (by rw [Tables.rest_of_tick ht]; rfl)
      rfl rfl rfl⟩
  preempted h ht := ⟨kept_coherent.preempted h.coherent ht, fun hspawns => by
    have hleft := (h.balanced hspawns).left hspawns
      (h.coherent.sound_of_current hspawns (Tables.parting_of_leave ht).previous) ht
    exact hleft.steady (.refl _) rfl rfl rfl rfl⟩

end Core

variable {allowed : Kernel C → Call C.Body → Prop} {config : Config} {client : C.State}
  {k₀ k : Kernel C} {calls : List (Call C.Body)}

/-- A new kernel has made no page and no thread. -/
theorem Kernel.accounted_of_ofConfig (h : Kernel.ofConfig config client = .ok k) :
    k.core.Accounted := by
  have hcoherent := coherent_of_ofConfig h
  obtain ⟨_, hslots, rfl⟩ := eq_of_ofConfig h
  have hfits : config.maxThreads < Word.top := by omega
  exact ⟨hcoherent, fun _ => ⟨Tables.housed_of_empty rfl rfl rfl rfl hfits (Nat.lt_succ_self _),
    Tables.ledger_of_empty rfl rfl rfl rfl rfl rfl, rfl, Nat.zero_le _, nofun⟩⟩

theorem Run.accounted (hq : hooks.QueryOnly) (h₀ : Kernel.ofConfig config client = .ok k₀)
    (hrun : Run hooks allowed k₀ calls k) : k.core.Accounted :=
  hrun.keeps hq Core.kept_accounted (Kernel.accounted_of_ofConfig h₀)

end RoundRobin
