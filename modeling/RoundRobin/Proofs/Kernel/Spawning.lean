import RoundRobin.Proofs.Kernel.Accounts
import RoundRobin.Proofs.Kernel.History
import RoundRobin.Proofs.Kernel.Questions

/-!
# What making a thread does

A thread is made in two critical sections, or not at all, and the kernel is spelled out for each
outcome. The pool refuses a page when as many are in use as the configuration allows, and otherwise
only where no page can be laid out, and there none was ever made.
-/

namespace RoundRobin

-- Powers here are those of natural numbers themselves, whatever other powers are in scope.
attribute [local instance (high)] instPowNat

variable {C : Client} {hooks : Hooks C}

/-! ## The outcomes of a spawn -/

namespace Act

variable {k : Kernel C} {t : Tables C.Body}

/-- A critical section that succeeds changes the tables and is noted; the level is what it was. -/
theorem masked_update_of_ok {α : Type} {a : α}
    {f : Tables C.Body → Except Fault (α × Tables C.Body)} (h : f k.tables = .ok (a, t)) :
    masked (update f) k
      = .ok a { k with tables := t, history := .updated .off :: k.history } := by
  have hsection : update f { k with cpu := Maskable.setLevel .off k.cpu }
      = .ok a { k with
          cpu := Maskable.setLevel .off k.cpu
          tables := t
          history := .updated .off :: k.history } :=
    update_eq_ok_iff.mpr ⟨t, h, by rw [FlagCpu.level_setLevel]⟩
  rw [masked_of_ok hsection]
  dsimp only
  rw [FlagCpu.setLevel_level]

theorem masked_change_of_ok {f : Tables C.Body → Except Fault (Tables C.Body)}
    (h : f k.tables = .ok t) : masked (change f) k
      = .ok () { k with tables := t, history := .updated .off :: k.history } :=
  masked_update_of_ok (by rw [h]; rfl)

end Act

namespace Kernel

open Act

variable {k : Kernel C} {name : String} {priority : Nat} {entry : Entry C.Body} {page : Page}
  {pool : PagePool}

theorem takePage_of_none (h : k.tables.pool.allocate = none) :
    (takePage : Act C (Option Page)) k = .ok none k := by
  refine masked_eq_ok_iff.mpr ⟨{ k with cpu := Maskable.setLevel .off k.cpu }, ?_, ?_⟩
  · rw [get_bind]
    dsimp only
    rw [h]
    rfl
  · dsimp only
    rw [FlagCpu.setLevel_level]

theorem takePage_of_some (h : k.tables.pool.allocate = some (page, pool)) :
    (takePage : Act C (Option Page)) k = .ok (some page)
      { k with tables := { k.tables with pool }, history := .updated .off :: k.history } := by
  refine masked_eq_ok_iff.mpr ⟨{ k with
    cpu := Maskable.setLevel .off k.cpu
    tables := { k.tables with pool }
    history := .updated .off :: k.history }, ?_, ?_⟩
  · rw [get_bind]
    dsimp only
    rw [h]
    dsimp only
    refine bind_eq_ok_iff.mpr ⟨(), _, change_eq_ok_iff.mpr ⟨_, rfl, rfl⟩, ?_⟩
    rw [FlagCpu.level_setLevel]
    rfl
  · dsimp only
    rw [FlagCpu.setLevel_level]

/-- The kernel with a new thread on a page, and the pool as the page left it. -/
def spawned (name : String) (priority : Nat) (entry : Entry C.Body) (page : Page) (pool : PagePool)
    (k : Kernel C) : Kernel C :=
  { k with
    nextId := k.nextId.next
    tables := { k.tables with pool }.insertThread
      (freshThread k.image k.nextId name priority page entry)
    history := .updated .off :: .updated .off :: k.history }

theorem spawn_of_down (h : k.initialized = false) :
    spawn name priority entry k = .ok (.error .notInitialized) k := by
  unfold spawn
  rw [get_bind, if_neg (by simp [h])]
  rfl

theorem spawn_of_none (hup : k.initialized = true) (h : k.tables.pool.allocate = none) :
    spawn name priority entry k = .ok (.error .outOfMemory) k := by
  unfold spawn
  rw [get_bind, if_pos hup, bind_of_ok (takePage_of_none h)]
  rfl

theorem spawn_of_some (hup : k.initialized = true)
    (h : k.tables.pool.allocate = some (page, pool)) :
    spawn name priority entry k
      = .ok (.ok k.nextId) (k.spawned name priority entry page pool) := by
  unfold spawn
  rw [get_bind, if_pos hup, bind_of_ok (takePage_of_some h)]
  dsimp only
  rw [takeId, modifyGet_bind]
  exact bind_eq_ok_iff.mpr ⟨(), _, masked_change_of_ok rfl, rfl⟩

end Kernel

/-! ## The pool of a run -/

/-- The pools hand out pages of one size, as many of them, and made as many so far. -/
structure PagePool.SameStock (pool pool' : PagePool) : Prop where
  pageSize : pool'.pageSize = pool.pageSize
  capacity : pool'.capacity = pool.capacity
  allocated : pool'.allocated = pool.allocated

namespace Tables

variable {β : Type} {t t' u : Tables β} {way : Way} {d : Dispatch}

/-- Pages come back from the dead, and none is made. -/
theorem sameStock_of_reapAll {ids : List ThreadId} (h : reapAll ids t = .ok u) :
    t.pool.SameStock u.pool := by
  induction ids generalizing t with
  | nil =>
    cases h
    exact ⟨rfl, rfl, rfl⟩
  | cons id rest ih =>
    obtain ⟨v, hv, h⟩ := Fault.bind_eq_ok_iff.mp h
    have hrest := ih h
    rcases reapOne_eq_ok_iff.mp hv with ⟨_, rfl⟩ | ⟨th, _, _, _, rfl⟩
    · exact hrest
    · have hregain : t.pool.SameStock (t.pool.regain th.page) := by
        cases th.page <;> exact ⟨rfl, rfl, rfl⟩
      exact ⟨hrest.pageSize.trans hregain.pageSize, hrest.capacity.trans hregain.capacity,
        hrest.allocated.trans hregain.allocated⟩

theorem sameStock_of_leave (h : t.leave way = .ok (d, t')) : t.pool.SameStock t'.pool := by
  obtain ⟨_, v, hreap, hd⟩ := steps_of_leave h
  obtain ⟨_, _, _, _, _, rfl⟩ := dispatch_eq_ok_iff.mp hd
  have hstock := sameStock_of_reapAll hreap
  rw [show ({ t.marked way d.previous with reclaim := [] } : Tables β).pool = t.pool
    from pool_marked] at hstock
  rw [rest_handedOver]
  exact hstock

end Tables

namespace Core

variable {s s' : Core C}

/-- The pool is that of the configuration. Where no page can be laid out, nobody ever got one. -/
structure Stocked (s : Core C) : Prop where
  pageSize : s.tables.pool.pageSize = s.config.pageSize
  capacity : s.tables.pool.capacity = s.config.maxThreads
  barren : PagePool.canLayOut s.config.pageSize = false →
    s.spawns = 0 ∧ s.tables.pool.allocated = 0

theorem Stocked.congr (h : Stocked s) (hconfig : s'.config = s.config) (hspawns : s'.spawns = s.spawns)
    (hpool : s.tables.pool.SameStock s'.tables.pool) : Stocked s' where
  pageSize := by rw [hpool.pageSize, hconfig, h.pageSize]
  capacity := by rw [hpool.capacity, hconfig, h.capacity]
  barren := by
    rw [hconfig, hspawns, hpool.allocated]
    exact h.barren

/-- Where no page can be laid out, none waits in the pool. -/
theorem Stocked.free_eq_nil (h : Stocked s) (haccounted : Accounted s)
    (hbarren : PagePool.canLayOut s.config.pageSize = false) : s.tables.pool.free = [] := by
  obtain ⟨hspawns, hnone⟩ := h.barren hbarren
  have hroom : s.spawns < Word.top := by
    rw [hspawns]
    decide
  have hallocated := (haccounted.balanced hroom).ledger.allocated
  rw [hnone] at hallocated
  exact List.eq_nil_of_length_eq_zero (by omega)

/-- The pool refuses a page when all that there may be are in use, or where none can be laid out. -/
theorem Stocked.allocate_eq_none_iff (h : Stocked s) (haccounted : Accounted s) :
    s.tables.pool.allocate = none ↔ s.config.maxThreads ≤ s.tables.pool.inUse ∨
      PagePool.canLayOut s.config.pageSize = false := by
  rw [PagePool.allocate_eq_none_iff, h.capacity, h.pageSize]
  refine or_congr_right ⟨fun hnone => hnone.2, fun hbarren => ⟨?_, hbarren⟩⟩
  exact h.free_eq_nil haccounted hbarren

theorem Stocked.hired {name : String} {priority : Nat} {entry : Entry C.Body} {page : Page}
    {pool : PagePool} (h : Stocked s) (haccounted : Accounted s)
    (hpool : s.tables.pool.allocate = some (page, pool)) :
    Stocked (s.hired name priority entry page pool) := by
  obtain ⟨_, _, _, hrest⟩ := PagePool.of_allocate hpool
  refine ⟨?_, ?_, fun hbarren => ?_⟩
  · show pool.pageSize = s.config.pageSize
    rw [hrest]
    exact h.pageSize
  · show pool.capacity = s.config.maxThreads
    rw [hrest]
    exact h.capacity
  · have hnone := (h.allocate_eq_none_iff haccounted).mpr (.inr hbarren)
    rw [hnone] at hpool
    cases hpool

theorem kept_stocked : Kept (fun s : Core C => Accounted s ∧ Stocked s) where
  later h hroom := ⟨kept_accounted.later h.1 hroom, h.2.congr rfl rfl ⟨rfl, rfl, rfl⟩⟩
  adopted h hfresh := ⟨kept_accounted.adopted h.1 hfresh, h.2.congr rfl rfl ⟨rfl, rfl, rfl⟩⟩
  hired h hup hpool := ⟨kept_accounted.hired h.1 hup hpool, h.2.hired h.1 hpool⟩
  appointed {s name priority entry page pool} h hup hfirst hpool := by
    have hhired : Stocked (s.hired name priority entry page pool) := h.2.hired h.1 hpool
    exact ⟨kept_accounted.appointed h.1 hup hfirst hpool, hhired.congr rfl rfl ⟨rfl, rfl, rfl⟩⟩
  unblocked {s id t} h ht := by
    have hpool : t.pool = s.tables.pool := (Tables.steady_unblock ht).pool
    exact ⟨kept_accounted.unblocked h.1 ht, h.2.congr rfl rfl (by rw [hpool]; exact ⟨rfl, rfl, rfl⟩)⟩
  left h hmay ht :=
    ⟨kept_accounted.left h.1 hmay ht, h.2.congr rfl rfl (Tables.sameStock_of_leave ht)⟩
  prioritized h hc := ⟨kept_accounted.prioritized h.1 hc, h.2.congr rfl rfl ⟨rfl, rfl, rfl⟩⟩
  ticked {s user asks t} h hup hroom ht := by
    have hpool : t.pool = s.tables.pool := (Tables.steady_tick ht).pool
    exact ⟨kept_accounted.ticked h.1 hup hroom ht,
      h.2.congr rfl rfl (by rw [show (s.ticked asks t).tables = t from rfl, hpool]; exact ⟨rfl, rfl, rfl⟩)⟩
  preempted h ht :=
    ⟨kept_accounted.preempted h.1 ht, h.2.congr rfl rfl (Tables.sameStock_of_leave ht)⟩

/-! ## Ids that were handed out -/

/-- The idle thread has one of the ids that were handed out, whether it lives or not. -/
def Past (s : Core C) : Prop :=
  s.spawns < Word.top → ∀ i, s.tables.idle = some i → i.val ≤ s.spawns + 1

theorem Past.congr (h : Past s) (hidle : s'.tables.idle = s.tables.idle)
    (hspawns : s.spawns ≤ s'.spawns) : Past s' := by
  intro hroom i hi
  have := h (by omega) i (hidle ▸ hi)
  omega

theorem kept_past : Kept (fun s : Core C => Coherent s ∧ Past s) where
  later h hroom := ⟨kept_coherent.later h.1 hroom, h.2.congr rfl (Nat.le_refl _)⟩
  adopted h hfresh := ⟨kept_coherent.adopted h.1 hfresh, h.2.congr rfl (Nat.le_refl _)⟩
  hired h hup hpool := ⟨kept_coherent.hired h.1 hup hpool, h.2.congr rfl (Nat.le_succ _)⟩
  appointed {s _ _ _ _ _} h hup hfirst hpool := by
    refine ⟨kept_coherent.appointed h.1 hup hfirst hpool, fun hroom i hi => ?_⟩
    have hroom : s.spawns + 1 < Word.top := hroom
    have hnext := (h.1.recorded (by omega) hup).nextId
    rw [Word.saturate_eq_self (by omega)] at hnext
    have hid : i = s.nextId := (Option.some.inj hi).symm
    rw [hid, hnext]
    exact Nat.le_refl _
  unblocked h ht := ⟨kept_coherent.unblocked h.1 ht,
    h.2.congr (by rw [Tables.rest_of_unblock ht]) (Nat.le_refl _)⟩
  left h hmay ht := ⟨kept_coherent.left h.1 hmay ht,
    h.2.congr (Tables.parting_of_leave ht).idle (Nat.le_refl _)⟩
  prioritized h hc := ⟨kept_coherent.prioritized h.1 hc, h.2.congr rfl (Nat.le_refl _)⟩
  ticked h hup hroom ht := ⟨kept_coherent.ticked h.1 hup hroom ht,
    h.2.congr (by rw [Tables.rest_of_tick ht]; rfl) (Nat.le_refl _)⟩
  preempted h ht := ⟨kept_coherent.preempted h.1 ht,
    h.2.congr (Tables.parting_of_leave ht).idle (Nat.le_refl _)⟩

/-- The next id is not that of the idle thread. -/
theorem Past.idle_ne_nextId (h : Past s) (hrecorded : Recorded s) (hroom : s.spawns + 1 < Word.top) :
    s.tables.idle ≠ some s.nextId := by
  intro hidle
  have hnext := hrecorded.nextId
  rw [Word.saturate_eq_self (by omega)] at hnext
  have := h (by omega) s.nextId hidle
  omega

end Core

/-! ## Every run -/

section Runs

variable {allowed : Kernel C → Call C.Body → Prop} {config : Config} {client : C.State}
  {k₀ k : Kernel C} {calls : List (Call C.Body)}

theorem Run.stocked (hq : hooks.QueryOnly) (h₀ : Kernel.ofConfig config client = .ok k₀)
    (hrun : Run hooks allowed k₀ calls k) : k.core.Stocked := by
  have hnew : k₀.core.Stocked := by
    obtain ⟨_, _, rfl⟩ := Kernel.eq_of_ofConfig h₀
    exact ⟨rfl, rfl, fun _ => ⟨rfl, rfl⟩⟩
  exact (hrun.keeps hq Core.kept_stocked ⟨Kernel.accounted_of_ofConfig h₀, hnew⟩).2

theorem Run.past (hq : hooks.QueryOnly) (h₀ : Kernel.ofConfig config client = .ok k₀)
    (hrun : Run hooks allowed k₀ calls k) : k.core.Past := by
  have hnew : k₀.core.Past := by
    obtain ⟨_, _, rfl⟩ := Kernel.eq_of_ofConfig h₀
    exact fun _ => nofun
  exact (hrun.keeps hq Core.kept_past ⟨Kernel.coherent_of_ofConfig h₀, hnew⟩).2

/-- A configured page size is a power of two, and not too small. -/
theorem Config.pageSize_of_validate (h : config.validate = .ok ()) :
    Config.isPowerOfTwo config.pageSize = true ∧ Config.minPageSize ≤ config.pageSize := by
  unfold Config.validate at h
  split at h
  · cases h
  split at h
  · cases h
  split at h
  · cases h
  split at h
  · cases h
  · next hpage =>
    rw [not_or, Bool.not_eq_false, Nat.not_lt] at hpage
    exact hpage

/-- Of page sizes that are configured, those from 2 ^ 63 on cannot be laid out. -/
theorem Config.canLayOut_eq_false_iff (h : config.validate = .ok ()) :
    PagePool.canLayOut config.pageSize = false ↔ 2 ^ (63 : Nat) ≤ config.pageSize := by
  rw [PagePool.canLayOut, (Config.pageSize_of_validate h).1, Bool.true_and, decide_eq_false_iff_not,
    Nat.not_lt]

/-- A page is refused when all that may be in use are, or where none can be laid out. -/
theorem Run.allocate_eq_none_iff (hq : hooks.QueryOnly)
    (h₀ : Kernel.ofConfig config client = .ok k₀) (hrun : Run hooks allowed k₀ calls k) :
    k.tables.pool.allocate = none ↔
      config.maxThreads ≤ k.tables.pool.inUse ∨ 2 ^ (63 : Nat) ≤ config.pageSize := by
  have hconfig : k.core.config = config := hrun.config_eq hq h₀
  have hrefused := (hrun.stocked hq h₀).allocate_eq_none_iff (hrun.accounted hq h₀)
  rw [hconfig, Config.canLayOut_eq_false_iff (Kernel.eq_of_ofConfig h₀).1] at hrefused
  exact hrefused

end Runs
end RoundRobin
