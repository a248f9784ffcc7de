import RoundRobin.Proofs.Kernel.Accounts
import RoundRobin.Proofs.Kernel.History

/-!
# Threads and pages are conserved

Every thread but the one that booted has a page of its own. What was handed out is with a thread that
lives or has come back, and a page is made only when all pages there are are in use. So the pool made as
many pages as were ever in use at one time, however many threads were created and exited.
-/

namespace RoundRobin

variable {C : Client} {hooks : Hooks C}

/-! ## Threads that are removed -/

namespace Tables

variable {β : Type} {t t' m : Tables β} {way : Way} {d : Dispatch}

/-- How many threads of one table are not in another one any more. -/
def lost (t t' : Tables β) : Nat :=
  t.threads.threads.countP fun th => (t'.threads.find? th.id).isNone

theorem lost_eq_zero (hdistinct : t.threads.Distinct)
    (hlives : ∀ i, (t.threads.find? i).isSome = true → (t'.threads.find? i).isSome = true) :
    t.lost t' = 0 := by
  unfold lost
  rw [List.countP_eq_zero]
  intro th hth hnone
  have hlive := hlives th.id (by rw [hdistinct.find?_of_mem hth]; rfl)
  rw [Option.isNone_iff_eq_none] at hnone
  rw [hnone] at hlive
  cases hlive

/-- When one thread that lived is removed, one is lost. -/
theorem lost_eq_one {i : ThreadId} (hdistinct : t.threads.Distinct)
    (hi : (t.threads.find? i).isSome = true)
    (hlives : ∀ j, (t'.threads.find? j).isSome = (decide (j ≠ i) && (t.threads.find? j).isSome)) :
    t.lost t' = 1 := by
  have hcount : (t.threads.threads.map (·.id)).count i = 1 := by
    obtain ⟨th, hth⟩ := Option.isSome_iff_exists.mp hi
    have hmem := List.mem_map_of_mem (f := (·.id)) (ThreadTable.mem_of_find? hth)
    rw [ThreadTable.id_of_find? hth] at hmem
    rw [List.Nodup.count hdistinct, if_pos hmem]
  rw [← hcount, List.count, List.countP_map]
  refine List.countP_congr fun th hth => ?_
  have hfind := hlives th.id
  rw [hdistinct.find?_of_mem hth] at hfind
  cases hgone : t'.threads.find? th.id <;> simp [hgone] at hfind ⊢ <;> exact hfind

/-- As many threads are lost as come back to the pool. -/
theorem released_of_decided {made : Nat} (hledger : Ledger made t) (hhoused : Housed t)
    (hsound : Sound t) (hsteady : Steady t m) (hmsound : Sound m) (hone : t.reclaim.length ≤ 1)
    (hmade : made < Word.top) (h : m.leave way = .ok (d, t')) :
    t'.pool.released = t.pool.released + t.lost t' ∧ t'.pool.allocated = t.pool.allocated := by
  have hlives : ∀ i, (t'.threads.find? i).isSome
      = (decide (i ∉ t.reclaim) && (t.threads.find? i).isSome) := by
    intro i
    rw [lives_of_leave h, hsteady.reclaim, hsteady.lives]
  rcases pending_cases hone with hnone | ⟨i, hi⟩
  · have hlost : t.lost t' = 0 := lost_eq_zero hsound.distinct fun i hi => by
      rw [hlives, hnone, hi]
      rfl
    have hpool := (pool_of_leave_nil (hsteady.reclaim.trans hnone) h).1
    rw [hlost, hpool, hsteady.pool]
    exact ⟨rfl, rfl⟩
  · have hpending : m.reclaim = [i] := hsteady.reclaim.trans hi
    obtain ⟨th, page, hth, _, _, _, hpool⟩ := (hledger.steady hsteady).page_of_leave hmsound
      (hhoused.steady hsteady) hpending hmade h
    have hlost : t.lost t' = 1 := by
      refine lost_eq_one hsound.distinct (i := i) ?_ fun j => ?_
      · rw [← hsteady.lives, hth]
        rfl
      · rw [hlives, hi]
        simp
    rw [hlost, hpool, ← hsteady.pool]
    exact ⟨rfl, rfl⟩

end Tables

namespace Core

variable {s s' : Core C} {c : Call C.Body}

/-- A page comes back with each thread that is removed. One is made only when all of those that there
are are in use, and then it is in use too. -/
theorem Accounted.pool_effect (h : Accounted s) (hspawns : s'.spawns < Word.top)
    (he : Effect s c s') :
    s'.tables.pool.released = s.tables.pool.released + s.tables.lost s'.tables ∧
      s'.tables.pool.allocated = max s.tables.pool.allocated s'.tables.pool.inUse := by
  have hroom : s.spawns < Word.top :=
    Nat.lt_of_le_of_lt ((kept_spawns s.spawns).effect (Nat.le_refl _) he) hspawns
  have hbalanced := h.balanced hroom
  have hbefore := hbalanced.ledger.allocated
  have hafter := ((kept_accounted.effect h he).balanced hspawns).ledger.allocated
  rcases he.quiet_or_decided with hquiet | ⟨m, way, d, hdecided⟩
  · rw [Tables.lost_eq_zero (h.coherent.distinct hroom) hquiet.lives]
    rcases hquiet.pool with hsame | ⟨page, hpool⟩
    · rw [hsame] at hafter ⊢
      exact ⟨rfl, by omega⟩
    · obtain ⟨hless, _, _, hrest⟩ := PagePool.of_allocate hpool
      have hreleased : s'.tables.pool.released = s.tables.pool.released := by rw [hrest]
      have hinUse : s'.tables.pool.inUse = Word.wrapSucc s.tables.pool.inUse := by rw [hrest]
      have hfits := hbalanced.housed.fits
      rw [Word.wrapSucc_eq (by omega)] at hinUse
      refine ⟨hreleased, ?_⟩
      rcases PagePool.number_of_allocate hpool with ⟨p, rest, _, _, hsame⟩ | ⟨hempty, _, hnext⟩
      · omega
      · -- nothing was free, so all pages were in use
        rw [hempty, List.length_nil] at hbefore
        rw [Word.wrapSucc_eq (by omega)] at hnext
        omega
  · have hsound := h.coherent.sound_of_current hroom hdecided.previous
    obtain ⟨hreleased, hsame⟩ := Tables.released_of_decided hbalanced.ledger hbalanced.housed hsound
      hdecided.steady (hdecided.sound hsound) hbalanced.alone hroom hdecided.leave
    exact ⟨hreleased, by omega⟩

end Core

/-! ## Counting along a run -/

/-- How many threads calls removed. -/
def Kernel.removals (hooks : Hooks C) : List (Call C.Body) → Kernel C → Nat
  | [], _ => 0
  | c :: rest, k =>
    match c.perform hooks k with
    | .ok _ k' => k.tables.lost k'.tables + removals hooks rest k'
    | .error _ _ => 0

/-- The largest number of pages that were in use at one time while calls were carried out. -/
def Kernel.peak (hooks : Hooks C) : List (Call C.Body) → Kernel C → Nat
  | [], k => k.tables.pool.inUse
  | c :: rest, k =>
    match c.perform hooks k with
    | .ok _ k' => max k.tables.pool.inUse (peak hooks rest k')
    | .error _ _ => k.tables.pool.inUse

variable {allowed : Kernel C → Call C.Body → Prop} {k k₁ k₂ : Kernel C} {calls : List (Call C.Body)}
  {c : Call C.Body} {r : Reply}

theorem Run.removals_snoc (hrun : Run hooks allowed k calls k₁) (hstep : c.perform hooks k₁ = .ok r k₂) :
    Kernel.removals hooks (calls ++ [c]) k
      = Kernel.removals hooks calls k + k₁.tables.lost k₂.tables := by
  induction calls generalizing k with
  | nil =>
    rw [hrun.eq_of_nil] at hstep ⊢
    simp [Kernel.removals, hstep]
  | cons e rest ih =>
    obtain ⟨r', k', he, hrest⟩ := hrun.uncons
    simp only [List.cons_append, Kernel.removals, he]
    rw [ih hrest, Nat.add_assoc]

theorem Run.peak_snoc (hrun : Run hooks allowed k calls k₁) (hstep : c.perform hooks k₁ = .ok r k₂) :
    Kernel.peak hooks (calls ++ [c]) k
      = max (Kernel.peak hooks calls k) k₂.tables.pool.inUse := by
  induction calls generalizing k with
  | nil =>
    rw [hrun.eq_of_nil] at hstep
    simp [Kernel.peak, hstep]
  | cons e rest ih =>
    obtain ⟨r', k', he, hrest⟩ := hrun.uncons
    simp only [List.cons_append, Kernel.peak, he]
    rw [ih hrest, Nat.max_assoc]

variable {config : Config} {client : C.State} {k₀ : Kernel C}

/-- As many pages came back as threads were removed, and as many were made as were ever in use at one
time. -/
theorem Run.pool_counts (hq : hooks.QueryOnly) (h₀ : Kernel.ofConfig config client = .ok k₀)
    (hrun : Run hooks allowed k₀ calls k) (hspawns : k.spawns < Word.top) :
    k.tables.pool.released = Kernel.removals hooks calls k₀ ∧
      k.tables.pool.allocated = Kernel.peak hooks calls k₀ ∧
      k.tables.pool.allocated ≤ config.maxThreads := by
  induction hrun with
  | nil =>
    obtain ⟨_, _, rfl⟩ := Kernel.eq_of_ofConfig h₀
    exact ⟨rfl, rfl, Nat.zero_le _⟩
  | @snoc calls c r k₁ k₂ run may step ih =>
    have hgrows := Kernel.spawns_le_of_perform hq step
    obtain ⟨hreleased, hallocated, hbounded⟩ := ih (Nat.lt_of_le_of_lt hgrows hspawns)
    obtain ⟨hlost, hmost⟩ := (run.accounted hq h₀).pool_effect hspawns (Call.effect hq step)
    have hcapacity : k₂.tables.pool.inUse ≤ config.maxThreads := by
      have hconfig : k₂.core.config = config := (run.snoc may step).config_eq hq h₀
      have hbalanced := ((run.snoc may step).accounted hq h₀).balanced hspawns
      rw [← hconfig, ← hbalanced.capacity]
      exact hbalanced.housed.bounded
    rw [run.removals_snoc step, run.peak_snoc step, ← hreleased, ← hallocated]
    refine ⟨hlost, hmost, ?_⟩
    rw [show k₂.tables.pool.allocated = _ from hmost]
    exact Nat.max_le.mpr ⟨hbounded, hcapacity⟩

/-! ## Conservation -/

/-- Threads, pages and ids add up in `k`, to which calls led from the new kernel `k₀`. -/
structure Conserved (hooks : Hooks C) (k₀ : Kernel C) (calls : List (Call C.Body)) (k : Kernel C) :
    Prop where
  /-- The thread that booted lives. -/
  boot : ∃ b, k.tables.boot = some b ∧ (k.tables.threads.find? b).isSome = true
  /-- It has no page, and every other thread has one. -/
  page : ∀ i th, k.tables.threads.find? i = some th →
    (th.page = none ↔ k.tables.boot = some i)
  unshared : ∀ i j n, k.tables.Owns i n → k.tables.Owns j n → i = j
  inUse : k.tables.pool.inUse + 1 = k.tables.threads.size
  bounded : k.tables.pool.inUse ≤ k₀.config.maxThreads
  released : k.tables.pool.released = Kernel.removals hooks calls k₀
  /-- Each thread that was made lives or was removed, and so does the one that booted. -/
  made : k.spawns + 1 = k.tables.threads.size + k.tables.pool.released
  /-- The ids from one on are handed out in their order. -/
  nextId : k.nextId.val = Word.saturate (k.tables.threads.size + k.tables.pool.released + 1)
  allocated : k.tables.pool.allocated = Kernel.peak hooks calls k₀
  allocated_le : k.tables.pool.allocated ≤ k₀.config.maxThreads
  free_length : k.tables.pool.free.length + k.tables.pool.inUse = k.tables.pool.allocated
  free_distinct : (k.tables.pool.free.map (·.number)).Nodup
  /-- No thread has a page that is in the free list. -/
  unowned : ∀ i n, k.tables.Owns i n → n ∉ k.tables.pool.free.map (·.number)

/-- Threads and pages are conserved by every run, whatever was called and in whatever order. -/
theorem conserved_of_run (hq : hooks.QueryOnly) (h₀ : Kernel.ofConfig config client = .ok k₀)
    (hrun : Run hooks anyCall k₀ calls k) (hup : k.initialized = true)
    (hspawns : k.spawns < Word.top) : Conserved hooks k₀ calls k := by
  have haccounted := hrun.accounted hq h₀
  obtain ⟨hhoused, hledger, _, _, hrooted⟩ := haccounted.balanced hspawns
  have hrecorded := haccounted.coherent.recorded hspawns hup
  obtain ⟨hreleased, hallocated, hmost⟩ := hrun.pool_counts hq h₀ hspawns
  obtain ⟨b, hb, hlives, _⟩ := hrooted hup
  have hconfig := Kernel.config_of_ofConfig h₀
  have hinUse : k.tables.pool.inUse + 1 = k.tables.threads.size := by
    have hcount := hhoused.inUse
    rw [hb] at hcount
    exact hcount
  have hmade : k.spawns + 1 = k.tables.threads.size + k.tables.pool.released := by
    have hcount := hledger.released
    rw [Tables.booted, hb] at hcount
    exact hcount.symm
  have hbalance : k.tables.pool.allocated = k.tables.pool.inUse + k.tables.pool.free.length :=
    hledger.allocated
  exact {
    boot := ⟨b, hb, hlives⟩
    page := fun i th hth => by
      refine ⟨hhoused.paged i th hth, fun hboot => ?_⟩
      cases hpage : th.page with
      | none => rfl
      | some page => exact absurd ⟨th, page, hth, hpage, rfl⟩ (hledger.boot i hboot page.number)
    unshared := hledger.unshared
    inUse := hinUse
    bounded := by
      rw [hconfig]
      omega
    released := hreleased
    made := hmade
    nextId := by
      rw [← hmade]
      exact hrecorded.nextId
    allocated := hallocated
    allocated_le := hconfig ▸ hmost
    free_length := by omega
    free_distinct := hledger.distinct
    unowned := hledger.unowned }

/-- The first of two workers exits, and the second one yields: three pages were in use at one time, and
one of them is free. -/
theorem conserved_of_run_two_workers : ∃ k : Kernel plainClient,
    plainKernel.after .plain (fun _ _ => true) [.init, .start, .create "first" 31 (),
      .create "second" 31 (), .yieldNow, .exit, .yieldNow] = some k ∧
    Conserved .plain plainKernel [.init, .start, .create "first" 31 (), .create "second" 31 (),
      .yieldNow, .exit, .yieldNow] k ∧
    k.tables.pool.released = 1 ∧ k.tables.pool.inUse = 2 ∧ k.tables.pool.allocated = 3 := by
  have hafter : (plainKernel.after .plain (fun _ _ => true) [.init, .start, .create "first" 31 (),
      .create "second" 31 (), .yieldNow, .exit, .yieldNow]).any (fun k =>
        k.initialized && decide (k.spawns < Word.top) && decide (k.tables.pool.released = 1 ∧
          k.tables.pool.inUse = 2 ∧ k.tables.pool.allocated = 3)) = true := by decide +kernel
  obtain ⟨k, hk, hchecks⟩ := (Option.any_eq_true _ _).mp hafter
  simp only [Bool.and_eq_true, decide_eq_true_eq] at hchecks
  obtain ⟨⟨hup, hspawns⟩, hcounts⟩ := hchecks
  exact ⟨k, hk, conserved_of_run Hooks.queryOnly_plain ofConfig_standard
    ((Run.of_after hk).mono fun _ _ _ => trivial) hup hspawns, hcounts⟩

end RoundRobin
