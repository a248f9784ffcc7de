import RoundRobin.Proofs.Kernel.Accounts
import RoundRobin.Proofs.Kernel.History

/-!
# Exited threads are reclaimed

A thread that exits is still on its stack while the decision in its exit is made, so that decision only
puts it aside. The next one removes it and takes its page back. Nobody is removed in another way, nobody
waits for longer, and an id that was removed names no thread ever again. The thread that booted has no
page to free, and stays.
-/

namespace RoundRobin

variable {C : Client} {hooks : Hooks C}

/-! ## Waiting to be reclaimed -/

namespace Tables

variable {β : Type}

/-- A thread that exited is all that waits to be reclaimed. It is dead and has its page still. -/
structure Waits (i : ThreadId) (page : Page) (t : Tables β) : Prop where
  pending : t.reclaim = [i]
  dead : ∃ th, t.threads.find? i = some th ∧ th.status = .dying ∧ th.page = some page
  notFree : page.number ∉ t.pool.free.map (·.number)

/-- A thread was removed, and its page was given back, once. -/
structure Freed (i : ThreadId) (page : Page) (t t' : Tables β) : Prop where
  gone : t'.threads.find? i = none
  size : t'.threads.size + 1 = t.threads.size
  used : 0 < t.pool.inUse
  pool : t'.pool = { t.pool with
    free := page :: t.pool.free
    released := t.pool.released + 1
    inUse := t.pool.inUse - 1 }
  once : (t'.pool.free.map (·.number)).count page.number = 1

end Tables

namespace Core

variable {s s' base : Core C} {c : Call C.Body} {m : Tables C.Body} {way : Way} {d : Dispatch}
  {t : Tables C.Body} {i : ThreadId} {page : Page} {n : Nat}

/-- Whoever waits to be reclaimed has a page. -/
theorem Accounted.waits (h : Accounted s) (hroom : s.spawns < Word.top) (hup : s.initialized = true)
    (hpending : s.tables.reclaim = [i]) : ∃ page, s.tables.Waits i page := by
  have hsound := (h.coherent.recorded hroom hup).sound
  have hbalanced := h.balanced hroom
  obtain ⟨th, hth, hlink⟩ :=
    (hsound.mem_iff_link (l := .reclaim) nofun).mp (hpending ▸ List.mem_singleton.mpr rfl)
  obtain ⟨hdying, hboot⟩ := (hsound.status_of_link hth).2.2 hlink
  cases hpage : th.page with
  | none => exact absurd (hbalanced.housed.paged i th hth hpage) hboot
  | some page =>
    exact ⟨page, hpending, ⟨th, hth, hdying, hpage⟩,
      hbalanced.ledger.unowned i page.number ⟨th, page, hth, hpage, rfl⟩⟩

/-- A thread other than the idle one, and the one that booted, leaves the processor by its exit and waits
to be reclaimed. -/
theorem Accounted.waits_of_exit (h : Accounted s) (hroom : s.spawns < Word.top)
    (hboot : s.tables.boot ≠ some d.previous) (hidle : s.tables.idle ≠ some d.previous)
    (ht : s.tables.leave .exit = .ok (d, t)) :
    d.next ≠ d.previous ∧ ∃ page, t.Waits d.previous page := by
  have hcurrent := (Tables.parting_of_leave ht).previous
  have hup := h.coherent.up_of_current hroom hcurrent
  have hsound := h.coherent.sound_of_current hroom hcurrent
  have hne := hsound.next_ne_of_exit hidle ht
  have hpending : t.reclaim = [d.previous] := by
    rw [Tables.reclaim_of_leave ht, if_pos ⟨rfl, Ne.symm hne, hboot⟩]
  have hafter : (s.left d t).tables.reclaim = [d.previous] := hpending
  exact ⟨hne, (kept_accounted.left h trivial ht).waits hroom hup hafter⟩

/-- The decision after that removes it, and is made by somebody else. -/
theorem Accounted.freed (h : Accounted s) (hroom : s.spawns < Word.top)
    (hwaits : s.tables.Waits i page) (hdecided : Decided c s s' m way d) :
    d.previous ≠ i ∧ s.tables.Freed i page s'.tables := by
  have hcurrent := hdecided.previous
  have hsound := h.coherent.sound_of_current hroom hcurrent
  have hbalanced := h.balanced hroom
  have hsteady := hdecided.steady
  have hpending : m.reclaim = [i] := hsteady.reclaim.trans hwaits.pending
  have hin : i ∈ m.reclaim := hpending ▸ List.mem_singleton.mpr rfl
  obtain ⟨th, page', hth, hpage', hsize, hused, hpool⟩ := (hbalanced.ledger.steady hsteady).page_of_leave
    (hdecided.sound hsound) (hbalanced.housed.steady hsteady) hpending hroom hdecided.leave
  have hpage : page' = page := by
    obtain ⟨th₀, hth₀, hsame⟩ := hsteady.survive i th hth
    obtain ⟨th₁, hth₁, _, hpage⟩ := hwaits.dead
    rw [hth₀, Option.some.injEq] at hth₁
    rw [hsame.page, hth₁, hpage, Option.some.injEq] at hpage'
    exact hpage'.symm
  subst hpage
  rw [hsteady.pool] at hpool hused
  refine ⟨fun heq => ?_, Tables.gone_of_leave hdecided.leave hin, hsize.trans hsteady.size, hused,
    hpool, ?_⟩
  · refine hsound.current_not_mem hcurrent (l := .reclaim) nofun ?_
    rw [heq, Tables.members, hwaits.pending]
    exact List.mem_singleton.mpr rfl
  · rw [hpool, List.map_cons, List.count_cons_self, List.count_eq_zero.mpr hwaits.notFree]

theorem Accounted.boot_not_pending (h : Accounted s) (hroom : s.spawns < Word.top)
    (hb : s.tables.boot = some i) : i ∉ s.tables.reclaim := by
  have hup := h.coherent.up hroom fun hblank => by
    rw [hblank.boot] at hb
    cases hb
  exact (h.coherent.recorded hroom hup).sound.boot_not_mem_reclaim hb

/-! ## Ids name one thread for ever -/

theorem Accounted.persist_left (h : Accounted s) (hroom : s.spawns < Word.top)
    (ht : s.tables.leave way = .ok (d, t)) : s.tables.Persist n t := by
  have hcurrent := (Tables.parting_of_leave ht).previous
  have hup := h.coherent.up_of_current hroom hcurrent
  exact (h.coherent.sound_of_current hroom hcurrent).persist_leave
    ((h.balanced hroom).rooted hup).idle_ne ht

/-- The ids that were given away at `base` still name the threads of that time, if any, and who was dead
then is dead. -/
structure Remembers (base s : Core C) : Prop where
  accounted : Accounted s
  up : s.initialized = true
  grows : base.spawns ≤ s.spawns
  persist : s.spawns < Word.top → base.tables.Persist (base.spawns + 1) s.tables

/-- A new thread gets an id that was not given away at `base`. -/
theorem Remembers.hired {name : String} {priority : Nat} {entry : Entry C.Body} {pool : PagePool}
    (h : Remembers base s) (hroom : s.spawns + 1 < Word.top) :
    base.tables.Persist (base.spawns + 1) (s.hired name priority entry page pool).tables := by
  have hnext := (h.accounted.coherent.recorded (by omega) h.up).nextId
  rw [Word.saturate_eq_self (by omega)] at hnext
  have hgrows := h.grows
  refine (h.persist (by omega)).trans (Tables.persist_inserted ?_)
  show base.spawns + 1 < s.nextId.val
  omega

theorem kept_remembers (base : Core C) : Kept (Remembers base) where
  later h hroom := ⟨kept_accounted.later h.accounted hroom, h.up, h.grows, h.persist⟩
  adopted h hfresh := absurd (h.up.symm.trans hfresh) nofun
  hired h hup hpool := ⟨kept_accounted.hired h.accounted hup hpool, hup, Nat.le_succ_of_le h.grows,
    h.hired⟩
  appointed h hup hfirst hpool := ⟨kept_accounted.appointed h.accounted hup hfirst hpool, hup,
    Nat.le_succ_of_le h.grows, fun hspawns => (h.hired hspawns).trans (.of_threads rfl)⟩
  unblocked h ht := ⟨kept_accounted.unblocked h.accounted ht, h.up, h.grows,
    fun hspawns => (h.persist hspawns).trans (Tables.persist_unblock ht)⟩
  left h _ ht := ⟨kept_accounted.left h.accounted trivial ht, h.up, h.grows,
    fun hspawns => (h.persist hspawns).trans (h.accounted.persist_left hspawns ht)⟩
  prioritized {_ _ priority} h hc := ⟨kept_accounted.prioritized h.accounted hc, h.up, h.grows,
    fun hspawns => (h.persist hspawns).trans
      (Tables.persist_modifyThread (f := fun th => { th with priority })
        fun _ => ⟨⟨rfl, rfl, rfl, rfl, rfl, rfl⟩, fun hdying => hdying⟩)⟩
  ticked h hup hroom ht := ⟨kept_accounted.ticked h.accounted hup hroom ht, hup, h.grows,
    fun hspawns => (h.persist hspawns).trans
      ((h.accounted.coherent.recorded hspawns hup).sound.persist_tick ht)⟩
  preempted h ht := ⟨kept_accounted.preempted h.accounted ht, h.up, h.grows,
    fun hspawns => (h.persist hspawns).trans (h.accounted.persist_left hspawns ht)⟩

end Core

variable {allowed : Kernel C → Call C.Body → Prop} {config : Config} {client : C.State}
  {k₀ k k' k₁ : Kernel C} {calls since : List (Call C.Body)} {c : Call C.Body} {r : Reply}
  {i b : ThreadId} {page : Page}

/-! ## Along a run -/

theorem Run.persist (hq : hooks.QueryOnly) (hrun : Run hooks allowed k since k₁)
    (h : k.core.Accounted) (hup : k.initialized = true) (hspawns : k₁.spawns < Word.top) :
    k.tables.Persist (k.spawns + 1) k₁.tables := by
  have hstart : Core.Remembers k.core k.core :=
    ⟨h, hup, Nat.le_refl _, fun _ => .refl _ _⟩
  exact (hrun.keeps hq (Core.kept_remembers k.core) hstart).persist hspawns

/-- An id names the same thread in the beginning and at the end, if it names one at both times. -/
theorem Run.same_thread {th th₁ : Thread C.Body} (hq : hooks.QueryOnly)
    (hrun : Run hooks allowed k since k₁) (h : k.core.Accounted) (hup : k.initialized = true)
    (hspawns : k₁.spawns < Word.top) (hth : k.tables.threads.find? i = some th)
    (hth₁ : k₁.tables.threads.find? i = some th₁) :
    th.Same th₁ ∧ (th.status = .dying → th₁.status = .dying) := by
  have hroom : k.spawns < Word.top := Nat.lt_of_le_of_lt (hrun.spawns_le hq) hspawns
  have hknown : i.val ≤ k.spawns + 1 := (h.coherent.recorded hroom hup).known i th hth
  obtain ⟨th', hth', hsame⟩ := hrun.persist hq h hup hspawns i th₁ hknown hth₁
  rw [hth, Option.some.injEq] at hth'
  exact hth' ▸ hsame

/-- An id that was given away and names nobody names nobody for ever. -/
theorem Run.stays_gone (hq : hooks.QueryOnly) (hrun : Run hooks allowed k since k₁)
    (h : k.core.Accounted) (hup : k.initialized = true) (hspawns : k₁.spawns < Word.top)
    (hknown : i.val ≤ k.spawns + 1) (hgone : k.tables.threads.find? i = none) :
    k₁.tables.threads.find? i = none := by
  rw [Option.eq_none_iff_forall_not_mem]
  intro th hth
  obtain ⟨th', hth', _⟩ := hrun.persist hq h hup hspawns i th hknown hth
  rw [hgone] at hth'
  cases hth'

/-- Once the thread that booted is dead, it stays in the table and stays dead. -/
theorem Run.boot_stays (hq : hooks.QueryOnly) (hrun : Run hooks allowed k since k₁)
    (h : k.core.Accounted) (hup : k.initialized = true) (hspawns : k₁.spawns < Word.top)
    (hb : k.tables.boot = some b)
    (hdead : ∃ th, k.tables.threads.find? b = some th ∧ th.status = .dying) :
    b ∉ k₁.tables.reclaim ∧ ∃ th, k₁.tables.threads.find? b = some th ∧ th.status = .dying := by
  obtain ⟨th, hth, hdying⟩ := hdead
  obtain ⟨hup₁, hb₁⟩ : k₁.initialized = true ∧ k₁.tables.boot = some b :=
    hrun.keeps hq (Core.kept_boot b) ⟨hup, hb⟩
  have h₁ : k₁.core.Accounted := hrun.keeps hq Core.kept_accounted h
  refine ⟨h₁.boot_not_pending hspawns hb₁, ?_⟩
  obtain ⟨b₁, hb₁', hlives, _⟩ := (h₁.balanced hspawns).rooted hup₁
  obtain rfl := Option.some.inj (hb₁.symm.trans hb₁')
  obtain ⟨th₁, hth₁⟩ := Option.isSome_iff_exists.mp hlives
  obtain ⟨_, hstays⟩ := hrun.same_thread hq h hup hspawns hth hth₁
  exact ⟨th₁, hth₁, hstays hdying⟩

/-- Until the next decision a thread that waits to be reclaimed waits. -/
theorem Run.waits (hq : hooks.QueryOnly) (hrun : Run hooks allowed k since k₁)
    (h : k.core.Accounted) (hup : k.initialized = true) (hspawns : k₁.spawns < Word.top)
    (hsame : k₁.decisions = k.decisions) (hwaits : k.tables.Waits i page) :
    k₁.tables.Waits i page := by
  have h₁ : k₁.core.Accounted := hrun.keeps hq Core.kept_accounted h
  have hup₁ : k₁.initialized = true := hrun.keeps hq Core.kept_initialized hup
  have hpending : k₁.tables.reclaim = [i] :=
    (hrun.of_undecided hq hsame).1.trans hwaits.pending
  obtain ⟨page₁, hwaits₁⟩ := h₁.waits hspawns hup₁ hpending
  obtain ⟨th₁, hth₁, _, hpage₁⟩ := hwaits₁.dead
  obtain ⟨th, hth, _, hpage⟩ := hwaits.dead
  -- the page at the end is the page of the same thread in the beginning
  obtain ⟨hsame, _⟩ := hrun.same_thread hq h hup hspawns hth hth₁
  rw [hsame.page, hpage, Option.some.injEq] at hpage₁
  exact hpage₁ ▸ hwaits₁

theorem Kernel.freed (hq : hooks.QueryOnly) (h : k.core.Accounted) (hspawns : k.spawns < Word.top)
    (hwaits : k.tables.Waits i page) (hstep : c.perform hooks k = .ok r k')
    (hmade : k'.decisions ≠ k.decisions) : ∃ d, k'.decisions = d :: k.decisions ∧
      d.previous ≠ i ∧ k.tables.Freed i page k'.tables := by
  rcases (Call.effect hq hstep).quiet_or_decided with hquiet | ⟨m, way, d, hdecided⟩
  · exact absurd hquiet.decisions hmade
  · exact ⟨d, hdecided.decisions, h.freed hspawns hwaits hdecided⟩

/-- A thread is only removed when it waits to be reclaimed, and by another thread. -/
theorem Kernel.pending_of_removed (hq : hooks.QueryOnly) (h : k.core.Accounted)
    (hspawns : k.spawns < Word.top) (hstep : c.perform hooks k = .ok r k')
    (hlived : (k.tables.threads.find? i).isSome = true) (hgone : k'.tables.threads.find? i = none) :
    i ∈ k.tables.reclaim ∧ ∃ d, k'.decisions = d :: k.decisions ∧ d.previous ≠ i := by
  rcases (Call.effect hq hstep).quiet_or_decided with hquiet | ⟨m, way, d, hdecided⟩
  · have hlives : (k'.tables.threads.find? i).isSome = true := hquiet.lives i hlived
    rw [hgone] at hlives
    cases hlives
  · have hpending : i ∈ k.tables.reclaim := by
      have hreclaim : m.reclaim = k.tables.reclaim := hdecided.steady.reclaim
      have hlived' : (m.threads.find? i).isSome = true := (hdecided.steady.lives i).trans hlived
      have hlives : (k'.tables.threads.find? i).isSome = _ := Tables.lives_of_leave hdecided.leave i
      rw [hgone, hreclaim, hlived'] at hlives
      refine Classical.not_not.mp fun hout => ?_
      rw [decide_eq_true hout] at hlives
      cases hlives
    have hcurrent : k.tables.current = some d.previous := hdecided.previous
    refine ⟨hpending, d, hdecided.decisions, fun heq => ?_⟩
    exact (h.coherent.sound_of_current hspawns hcurrent).current_not_mem hcurrent (l := .reclaim) nofun
      (heq ▸ hpending)

/-- The last decision of a run from `k₀` to `k` was the one in the exit of a thread that did not boot. -/
def Exited (hooks : Hooks C) (allowed : Kernel C → Call C.Body → Prop) (i : ThreadId) (k₀ : Kernel C)
    (calls : List (Call C.Body)) (k : Kernel C) : Prop :=
  ∃ before after m r m', calls = before ++ .exit :: after ∧ Run hooks allowed k₀ before m ∧
    allowed m .exit ∧ m.tables.current = some i ∧ m.tables.boot ≠ some i ∧
    Call.exit.perform hooks m = .ok r m' ∧ Run hooks allowed m' after k ∧ k.decisions = m'.decisions

/-- Who waits to be reclaimed made the last decision, in its exit. -/
theorem Run.exited_of_pending (hq : hooks.QueryOnly) (hrun : Run hooks allowed k₀ calls k)
    (hnone : k₀.tables.reclaim = []) (hi : i ∈ k.tables.reclaim) :
    Exited hooks allowed i k₀ calls k := by
  induction hrun with
  | nil =>
    rw [hnone] at hi
    cases hi
  | @snoc calls c r k₁ k₂ run may step ih =>
    rcases (Call.effect hq step).quiet_or_decided with hquiet | ⟨m, way, d, hdecided⟩
    · have hbefore : i ∈ k₁.tables.reclaim := hquiet.reclaim ▸ hi
      obtain ⟨before, after, m, r', m', rfl, hm, hmay, hcurrent, hboot, hexit, hafter, hsame⟩ :=
        ih hbefore
      exact ⟨before, after ++ [c], m, r', m', by simp, hm, hmay, hcurrent, hboot, hexit,
        hafter.snoc may step, hquiet.decisions.trans hsame⟩
    · have hreclaim : k₂.tables.reclaim = _ := Tables.reclaim_of_leave hdecided.leave
      rw [hreclaim] at hi
      split at hi
      · next hexits =>
        obtain ⟨hway, _, hboot⟩ := hexits
        obtain rfl := List.mem_singleton.mp hi
        obtain rfl := hdecided.exits hway
        exact ⟨calls, [], k₁, r, k₂, rfl, run, may, hdecided.previous,
          fun h => hboot (hdecided.steady.boot.trans h), step, .nil, rfl⟩
      · cases hi

/-! ## Reclamation -/

/-- What becomes of a thread with a page that exits in the call from `k` to `k'`. -/
structure Reclaimed (hooks : Hooks C) (i : ThreadId) (page : Page) (k k' : Kernel C) : Prop where
  owned : ∃ th, k.tables.threads.find? i = some th ∧ th.page = some page
  /-- The decision in the exit is for another thread. -/
  replaced : ∃ next, next ≠ i ∧ k'.decisions = ⟨i, next⟩ :: k.decisions ∧
    k'.tables.current = some next
  /-- Until the next decision the thread is dead and has its page. -/
  waits : ∀ {since : List (Call C.Body)} {k₁ : Kernel C}, Run hooks anyCall k' since k₁ →
    k₁.spawns < Word.top → k₁.decisions = k'.decisions → k₁.tables.Waits i page
  /-- The next decision is another thread's, and removes it. -/
  freed : ∀ {since : List (Call C.Body)} {k₁ k₂ : Kernel C} {c : Call C.Body} {r : Reply},
    Run hooks anyCall k' since k₁ → k₁.spawns < Word.top → k₁.decisions = k'.decisions →
    c.perform hooks k₁ = .ok r k₂ → k₂.decisions ≠ k₁.decisions →
    ∃ d, k₂.decisions = d :: k₁.decisions ∧ d.previous ≠ i ∧ k₁.tables.Freed i page k₂.tables
  /-- The thread is never ready, running or blocked again, -/
  dead : ∀ {since : List (Call C.Body)} {k₁ : Kernel C}, Run hooks anyCall k' since k₁ →
    k₁.spawns < Word.top → ∀ th, k₁.tables.threads.find? i = some th → th.status = .dying
  /-- and from that decision on no thread has its id. -/
  gone : ∀ {since : List (Call C.Body)} {k₁ : Kernel C}, Run hooks anyCall k' since k₁ →
    k₁.spawns < Word.top → k₁.decisions ≠ k'.decisions → k₁.tables.threads.find? i = none

/-- A thread that was replaced in its exit, and waits since then, is reclaimed. -/
theorem Kernel.reclaimed (hq : hooks.QueryOnly) (h : k'.core.Accounted)
    (hup : k'.initialized = true) (hspawns : k'.spawns < Word.top)
    (howned : ∃ th, k.tables.threads.find? i = some th ∧ th.page = some page)
    (hwaits : k'.tables.Waits i page)
    (hreplaced : ∃ next, next ≠ i ∧ k'.decisions = ⟨i, next⟩ :: k.decisions ∧
      k'.tables.current = some next) : Reclaimed hooks i page k k' := by
  obtain ⟨th, hth, hdying, _⟩ := hwaits.dead
  have hknown : i.val ≤ k'.spawns + 1 := (h.coherent.recorded hspawns hup).known i th hth
  have hfreed : ∀ {since : List (Call C.Body)} {k₁ k₂ : Kernel C} {c : Call C.Body} {r : Reply},
      Run hooks anyCall k' since k₁ → k₁.spawns < Word.top → k₁.decisions = k'.decisions →
      c.perform hooks k₁ = .ok r k₂ → k₂.decisions ≠ k₁.decisions →
      ∃ d, k₂.decisions = d :: k₁.decisions ∧ d.previous ≠ i ∧ k₁.tables.Freed i page k₂.tables := by
    intro since k₁ k₂ c r hrun hspawns₁ hsame hstep hmade
    have hwaits₁ := hrun.waits hq h hup hspawns₁ hsame hwaits
    exact Kernel.freed hq (hrun.keeps hq Core.kept_accounted h) hspawns₁ hwaits₁ hstep hmade
  constructor
  case owned => exact howned
  case replaced => exact hreplaced
  case waits => exact fun hrun hspawns₁ hsame => hrun.waits hq h hup hspawns₁ hsame hwaits
  case freed => exact hfreed
  case dead =>
    intro since k₁ hrun hspawns₁ th₁ hth₁
    exact (hrun.same_thread hq h hup hspawns₁ hth hth₁).2 hdying
  case gone =>
    intro since k₁ hrun hspawns₁ hmade
    rcases hrun.holds_or_ends (P := fun m => m.decisions = k'.decisions) rfl with
      ⟨hsame, _⟩ | ⟨earlier, c, later, k₂, r, k₃, rfl, hearlier, hsame, hstep, hdiffers, hlater⟩
    · exact absurd hsame hmade
    · -- the first decision removes the thread, and its id is not given away again
      have hthere : Run hooks anyCall k' earlier k₂ := hearlier.mono fun _ _ _ => trivial
      have hthen : Run hooks anyCall k' (earlier ++ [c]) k₃ := hthere.snoc trivial hstep
      have hgrows := Kernel.spawns_le_of_perform hq hstep
      have hlast := hlater.spawns_le hq
      have hsince := hthen.spawns_le hq
      obtain ⟨_, _, _, hfree⟩ := hfreed hthere (by omega) hsame hstep fun heq =>
        hdiffers (heq.trans hsame)
      exact hlater.stays_gone hq (hthen.keeps hq Core.kept_accounted h)
        (hthen.keeps hq Core.kept_initialized hup) hspawns₁ (by omega) hfree.gone

/-- The decision in an exit. -/
theorem Kernel.leave_of_exit (hq : hooks.QueryOnly) (hc : k.tables.current = some i)
    (hstep : Call.exit.perform hooks k = .ok r k') : ∃ d t, d.previous = i ∧
      k.tables.leave .exit = .ok (d, t) ∧ k'.core = k.core.left d t := by
  obtain ⟨_, hexit⟩ := Act.ok_of_bind_pure hstep
  obtain ⟨d, t, ht, hcore⟩ := core_of_exit hq hexit
  have hprevious := (Tables.parting_of_leave ht).previous
  rw [hc, Option.some.injEq] at hprevious
  exact ⟨d, t, hprevious.symm, ht, hcore⟩

/-- How threads end, as seen from a state `k` to which calls led from `k₀`. -/
structure Reclamation (hooks : Hooks C) (allowed : Kernel C → Call C.Body → Prop) (k₀ : Kernel C)
    (calls : List (Call C.Body)) (k : Kernel C) : Prop where
  alone : k.tables.reclaim.length ≤ 1
  /-- A thread that exits is reclaimed, unless it is the idle thread or the one that booted. -/
  exit : ∀ {i : ThreadId} {r : Reply} {k' : Kernel C}, k.tables.current = some i →
    k.tables.boot ≠ some i → k.tables.idle ≠ some i → Call.exit.perform hooks k = .ok r k' →
    ∃ page, Reclaimed hooks i page k k'
  /-- Nobody is removed in another way: it exited, and this is the next decision. The thread that booted
  is not removed, nor is the idle thread where it may not exit. -/
  removal : ∀ {i : ThreadId} {c : Call C.Body} {r : Reply} {k' : Kernel C},
    c.perform hooks k = .ok r k' → (k.tables.threads.find? i).isSome = true →
    k'.tables.threads.find? i = none →
    Exited hooks allowed i k₀ calls k ∧ ∃ d, k'.decisions = d :: k.decisions ∧ d.previous ≠ i
  /-- The thread that booted never waits to be reclaimed. -/
  boot : ∀ {b : ThreadId}, k.tables.boot = some b → b ∉ k.tables.reclaim
  /-- When it exits it stays, dead for ever. -/
  boot_exit : ∀ {b : ThreadId} {r : Reply} {k' : Kernel C}, k.tables.current = some b →
    k.tables.boot = some b → Call.exit.perform hooks k = .ok r k' →
    ∀ {since : List (Call C.Body)} {k₁ : Kernel C}, Run hooks anyCall k' since k₁ →
      k₁.spawns < Word.top → b ∉ k₁.tables.reclaim ∧
        ∃ th, k₁.tables.threads.find? b = some th ∧ th.status = .dying

/-- Whatever was called and in whatever order, threads that exit are reclaimed by the next decision, and
no other thread is removed. -/
theorem reclaimed_after_exit (hq : hooks.QueryOnly) (h₀ : Kernel.ofConfig config client = .ok k₀)
    (hrun : Run hooks allowed k₀ calls k) (hspawns : k.spawns < Word.top) :
    Reclamation hooks allowed k₀ calls k := by
  have h := hrun.accounted hq h₀
  have hbalanced := h.balanced hspawns
  have hthen : ∀ {r : Reply} {k' : Kernel C}, Call.exit.perform hooks k = .ok r k' →
      k'.core.Accounted :=
    fun hstep => Core.kept_accounted.effect h (Call.effect hq hstep)
  constructor
  case alone => exact hbalanced.alone
  case exit =>
    intro i r k' hc hboot hidle hstep
    obtain ⟨d, t, rfl, ht, hcore⟩ := Kernel.leave_of_exit hq hc hstep
    have htables : k'.tables = t := congrArg Core.tables hcore
    have hspawns' : k'.spawns = k.spawns := congrArg Core.spawns hcore
    have hup' : k'.initialized = true :=
      (congrArg Core.initialized hcore).trans (h.coherent.up_of_current hspawns hc)
    obtain ⟨hne, page, hwaits⟩ := h.waits_of_exit hspawns hboot hidle ht
    have hparting := Tables.parting_of_leave ht
    obtain ⟨th', hth', _, hpage⟩ := hwaits.dead
    obtain ⟨th, hth, hsame⟩ := hparting.survive d.previous th' hth'
    refine ⟨page, Kernel.reclaimed hq (hthen hstep) hup' (hspawns' ▸ hspawns)
      ⟨th, hth, hsame.page.symm.trans hpage⟩ (htables ▸ hwaits)
      ⟨d.next, hne, congrArg Core.decisions hcore, ?_⟩⟩
    rw [htables]
    exact hparting.current
  case removal =>
    intro i c r k' hstep hlived hgone
    obtain ⟨hpending, hmade⟩ := Kernel.pending_of_removed hq h hspawns hstep hlived hgone
    have hnone : k₀.tables.reclaim = [] := by
      obtain ⟨_, _, rfl⟩ := Kernel.eq_of_ofConfig h₀
      rfl
    exact ⟨hrun.exited_of_pending hq hnone hpending, hmade⟩
  case boot => exact fun hb => h.boot_not_pending hspawns hb
  case boot_exit =>
    intro b r k' hc hb hstep since k₁ hsince hspawns₁
    obtain ⟨d, t, rfl, ht, hcore⟩ := Kernel.leave_of_exit hq hc hstep
    have htables : k'.tables = t := congrArg Core.tables hcore
    have hup := h.coherent.up_of_current hspawns hc
    have hup' : k'.initialized = true := (congrArg Core.initialized hcore).trans hup
    have hparting := Tables.parting_of_leave ht
    -- the thread that booted is not the idle thread, so somebody else comes next
    have hne := (h.coherent.recorded hspawns hup).sound.next_ne_of_exit
      ((hbalanced.rooted hup).idle_ne d.previous hb) ht
    refine hsince.boot_stays hq (hthen hstep) hup' hspawns₁ ?_ ?_
    · rw [htables]
      exact hparting.boot.trans hb
    · rw [htables]
      exact hparting.outgoing (Ne.symm hne)

/-- A worker exits. The yield of the thread that booted removes it, and its page is free. -/
theorem reclaimed_after_exit_worker : ∃ k k' k₁ : Kernel plainClient, ∃ page,
    plainKernel.after .plain (fun _ _ => true) [.init, .start, .create "worker" 31 (), .yieldNow]
      = some k ∧
    k.after .plain (fun _ _ => true) [.exit] = some k' ∧
    k'.after .plain (fun _ _ => true) [.yieldNow] = some k₁ ∧
    Reclaimed .plain ⟨3⟩ page k k' ∧ k'.tables.Waits ⟨3⟩ page ∧
    k'.tables.Freed ⟨3⟩ page k₁.tables := by
  have hchecks : (plainKernel.after .plain (fun _ _ => true)
      [.init, .start, .create "worker" 31 (), .yieldNow]).any (fun k =>
        decide (k.spawns < Word.top ∧ k.tables.current = some ⟨3⟩ ∧ k.tables.boot ≠ some ⟨3⟩ ∧
          k.tables.idle ≠ some ⟨3⟩) &&
        (k.after .plain (fun _ _ => true) [.exit]).any fun k' => decide (k'.spawns < Word.top) &&
          (k'.after .plain (fun _ _ => true) [.yieldNow]).any fun k₁ =>
            decide (k₁.decisions ≠ k'.decisions)) = true := by decide +kernel
  obtain ⟨k, hk, hchecks⟩ := (Option.any_eq_true _ _).mp hchecks
  simp only [Bool.and_eq_true, decide_eq_true_eq] at hchecks
  obtain ⟨⟨hspawns, hc, hboot, hidle⟩, hchecks⟩ := hchecks
  obtain ⟨k', hk', hchecks⟩ := (Option.any_eq_true _ _).mp hchecks
  simp only [Bool.and_eq_true, decide_eq_true_eq] at hchecks
  obtain ⟨hspawns', hchecks⟩ := hchecks
  obtain ⟨k₁, hk₁, hmade⟩ := (Option.any_eq_true _ _).mp hchecks
  rw [decide_eq_true_eq] at hmade
  have hrun : Run .plain anyCall plainKernel _ k := (Run.of_after hk).mono fun _ _ _ => trivial
  obtain ⟨r, hexit⟩ := Kernel.perform_of_after hk'
  obtain ⟨r₁, hyield⟩ := Kernel.perform_of_after hk₁
  obtain ⟨page, hreclaimed⟩ := (reclaimed_after_exit Hooks.queryOnly_plain ofConfig_standard hrun
    hspawns).exit hc hboot hidle hexit
  obtain ⟨_, _, _, hfreed⟩ := hreclaimed.freed .nil hspawns' rfl hyield hmade
  exact ⟨k, k', k₁, page, hk, hk', hk₁, hreclaimed, hreclaimed.waits .nil hspawns' rfl, hfreed⟩

end RoundRobin
