import RoundRobin.Proofs.Kernel.Coherent
import RoundRobin.Proofs.Kernel.History

/-!
# Wake-ups are not doubled

An unblock wants a thread that is blocked and in no container. Blocking is what brings a thread there:
one that sleeps is in the registry, and a new one is unblocked before anybody hears of it. So a thread
that was unblocked does not await another unblock until it has blocked, however often it runs, yields,
sleeps and wakes in between.
-/

namespace RoundRobin

variable {C : Client} {hooks : Hooks C}

/-! ## Threads that await an unblock -/

namespace Tables

variable {β : Type} {t t' : Tables β} {i : ThreadId} {th : Thread β} {way : Way} {d : Dispatch}
  {now timeSlice : Nat} {user asks : Bool}

/-- A thread is blocked, and in no container from which it could be readied. -/
def Awaits (i : ThreadId) (t : Tables β) : Prop :=
  ∃ th, t.threads.find? i = some th ∧ th.status = .blocked ∧ th.link = .unlinked

theorem awaits_of_unblock (h : t.unblock i = .ok t') : t.Awaits i := by
  obtain ⟨⟨th, hth, _, hblocked, hlink⟩, _⟩ := unblock_eq_ok_iff.mp h
  exact ⟨th, hth, hblocked, hlink⟩

/-- Who was readied awaits nothing. -/
theorem Readied.not_awaits {ids : List ThreadId} (h : Readied ids t t') (hi : i ∈ ids) :
    ¬ t'.Awaits i := by
  rintro ⟨th, hth, hblocked, _⟩
  rw [h.find?, Option.map_eq_some_iff] at hth
  obtain ⟨_, _, rfl⟩ := hth
  rw [if_pos hi] at hblocked
  cases hblocked

theorem Readied.awaits {ids : List ThreadId} (h : Readied ids t t') (hi : t'.Awaits i) :
    t.Awaits i := by
  by_cases hin : i ∈ ids
  · exact absurd hi (h.not_awaits hin)
  · obtain ⟨th, hth, hawaits⟩ := hi
    rw [h.find?] at hth
    simp only [if_neg hin, Option.map_id'] at hth
    exact ⟨th, hth, hawaits⟩

theorem awaits_of_tick (h : t.tick user now timeSlice = .ok (asks, t')) (hi : t'.Awaits i) :
    t.Awaits i := by
  obtain ⟨woken, u, c, stats, hw, _, _, _, _, rfl⟩ := tick_eq_ok_iff.mp h
  have hcharged : u.Awaits i := hi
  rcases wakeDue_eq_ok_iff.mp hw with ⟨_, _, hm⟩ | ⟨_, _, rfl⟩
  · exact (readied_of_makeAllReady hm).awaits hcharged
  · exact hcharged

theorem awaits_of_insertThread (hne : i ≠ th.id) (hi : (t.insertThread th).Awaits i) :
    t.Awaits i := by
  obtain ⟨th', hth', hawaits⟩ := hi
  replace hth' := (ThreadTable.find?_insert t.threads th i).symm.trans hth'
  rw [if_neg hne] at hth'
  exact ⟨th', hth', hawaits⟩

/-- A change that keeps status and link keeps what threads await. -/
theorem awaits_of_modifyThread {id : ThreadId} {f : Thread β → Thread β}
    (hf : ∀ th, (f th).id = th.id ∧ (f th).status = th.status ∧ (f th).link = th.link)
    (hi : (t.modifyThread id f).Awaits i) : t.Awaits i := by
  obtain ⟨th', hth', hblocked, hlink⟩ := hi
  obtain ⟨th, hth, rfl⟩ := ThreadTable.of_find?_modify hth' fun th => (hf th).1
  split at hblocked
  · rw [(hf th).2.1] at hblocked
    rw [if_pos ‹_›, (hf th).2.2] at hlink
    exact ⟨th, hth, hblocked, hlink⟩
  · rw [if_neg ‹_›] at hlink
    exact ⟨th, hth, hblocked, hlink⟩

/-- Who runs awaits nothing. -/
theorem Sound.current_not_awaits (h : Sound t) (hc : t.current = some i) : ¬ t.Awaits i := by
  rintro ⟨th, hth, hblocked, _⟩
  rw [(h.running_iff hth).mpr hc] at hblocked
  cases hblocked

/-- Who falls asleep is in the registry, and awaits its tick. -/
theorem Sound.sleeper_not_awaits (h : Sound t) (hi : i ∈ t.sleepers.sleepers.map (·.thread)) :
    ¬ t.Awaits i := by
  rintro ⟨th, hth, _, hlink⟩
  have hsleeping := (h.mem_iff .sleeping nofun i).mp hi
  rw [linkOf_of_find? hth, hlink] at hsleeping
  cases hsleeping

/-- After a decision the thread that left awaits an unblock only if it blocked. -/
theorem Sound.previous_not_awaits (hsound : Sound t) (h : t.leave way = .ok (d, t'))
    (hway : way ≠ .block) : ¬ t'.Awaits d.previous := by
  have hparting := parting_of_leave h
  have hsound' := hsound.leave h
  by_cases hself : d.previous = d.next
  · exact hsound'.current_not_awaits (hself ▸ hparting.current)
  · cases hways : way with
    | block => exact absurd hways hway
    | sleep w =>
      apply hsound'.sleeper_not_awaits
      rw [hparting.sleepers, hways]
      exact List.mem_map.mpr ⟨⟨d.previous, w⟩, SleepRegistry.mem_insert.mpr (.inl rfl), rfl⟩
    | _ =>
      rintro ⟨th, hth, hblocked, _⟩
      obtain ⟨th', hth', hstatus⟩ := hparting.outgoing hself
      rw [hth, Option.some.injEq] at hth'
      rw [← hth', hblocked, hways] at hstatus
      cases hstatus

/-- A decision makes nobody await an unblock but a thread that blocks. -/
theorem Sound.awaits_of_leave (hsound : Sound t) (h : t.leave way = .ok (d, t'))
    (hway : way = .block → t.current ≠ some i) (hi : t'.Awaits i) : t.Awaits i := by
  have hparting := parting_of_leave h
  have hprevious : i ≠ d.previous := by
    rintro rfl
    exact hsound.previous_not_awaits h (fun hblock => hway hblock hparting.previous) hi
  have hnext : i ≠ d.next := by
    rintro rfl
    exact (hsound.leave h).current_not_awaits hparting.current hi
  obtain ⟨th, hth, hawaits⟩ := hi
  rw [hparting.others i hprevious hnext] at hth
  split at hth
  · cases hth
  · exact ⟨th, hth, hawaits⟩

end Tables

/-! ## What keeps a thread from awaiting an unblock -/

namespace Core

variable {s : Core C} {t : ThreadId}

/-- A thread that was made, and that awaits no unblock. -/
structure Roused (t : ThreadId) (s : Core C) : Prop where
  coherent : s.Coherent
  up : s.initialized = true
  known : t.val ≤ s.spawns + 1
  settled : s.spawns < Word.top → ¬ s.tables.Awaits t

/-- Nobody blocks while the thread is current. -/
def notBlocking (t : ThreadId) (s : Core C) (way : Way) : Prop :=
  way = .block → s.tables.current ≠ some t

variable {name : String} {priority : Nat} {entry : Entry C.Body} {page : Page} {pool : PagePool}

/-- A new thread is not one that was made before. -/
theorem Roused.hired (h : Roused t s) (hroom : s.spawns + 1 < Word.top) :
    ¬ (s.hired name priority entry page pool).tables.Awaits t := by
  intro hawaits
  have hne : t ≠ s.nextId := by
    rintro rfl
    have hnext := (h.coherent.recorded (by omega) h.up).nextId
    rw [Word.saturate_eq_self (by omega)] at hnext
    have hknown := h.known
    omega
  exact h.settled (by omega) (Tables.awaits_of_insertThread hne hawaits)

theorem Roused.left {way : Way} {d : Dispatch} {u : Tables C.Body} (h : Roused t s)
    (hway : notBlocking t s way) (hroom : s.spawns < Word.top)
    (hleave : s.tables.leave way = .ok (d, u)) : ¬ u.Awaits t := by
  intro hawaits
  have hsound := (h.coherent.recorded hroom h.up).sound
  exact h.settled hroom (hsound.awaits_of_leave hleave hway hawaits)

/-- As long as it does not block, every step keeps a thread from awaiting an unblock. -/
theorem kept_roused (t : ThreadId) : KeptUnder (C := C) (notBlocking t) (Roused t) where
  later h hroom := ⟨kept_coherent.later h.coherent hroom, h.up, h.known, h.settled⟩
  adopted h hfresh := absurd (h.up.symm.trans hfresh) nofun
  hired h hup hpool := ⟨kept_coherent.hired h.coherent hup hpool, h.up,
    Nat.le_succ_of_le h.known, fun hroom => h.hired hroom⟩
  appointed h hup hfirst hpool := ⟨kept_coherent.appointed h.coherent hup hfirst hpool, h.up,
    Nat.le_succ_of_le h.known, fun hroom => h.hired hroom⟩
  unblocked h ht := ⟨kept_coherent.unblocked h.coherent ht, h.up, h.known,
    fun hroom hawaits => h.settled hroom ((Tables.readied_of_unblock ht).awaits hawaits)⟩
  left h hway ht := ⟨kept_coherent.left h.coherent trivial ht, h.up, h.known,
    fun hroom => h.left hway hroom ht⟩
  prioritized {_ _ priority} h hc := ⟨kept_coherent.prioritized h.coherent hc, h.up, h.known,
    fun hroom hawaits => h.settled hroom (Tables.awaits_of_modifyThread
      (f := fun th => { th with priority }) (fun _ => ⟨rfl, rfl, rfl⟩) hawaits)⟩
  ticked h hup hroom ht := ⟨kept_coherent.ticked h.coherent hup hroom ht, h.up, h.known,
    fun hspawns hawaits => h.settled hspawns (Tables.awaits_of_tick ht hawaits)⟩
  preempted {s _ _} h ht := by
    have hyields : notBlocking t s .yield := nofun
    exact ⟨kept_coherent.preempted h.coherent ht, h.up, h.known,
      fun hroom => h.left hyields hroom ht⟩

end Core

/-! ## Unblocks -/

variable {config : Config} {client : C.State} {k₀ k k' k₁ k₂ k₃ : Kernel C}
  {calls between : List (Call C.Body)} {c : Call C.Body} {r : Reply} {t : ThreadId}

/-- A call that unblocked a thread: an unblock, or the creation of the thread, which ends with one. -/
inductive Call.Rouses {β : Type} (t : ThreadId) : Call β → Reply → Prop where
  | unblock {r : Reply} : Rouses t (.unblock t) r
  | create {name : String} {priority : Nat} {body : β} :
      Rouses t (.create name priority body) (.created (.ok t))

/-- In a run from `k` to `k'` a block was carried out with `t` as the current thread. -/
def BlockedDuring (hooks : Hooks C) (t : ThreadId) (k : Kernel C) (calls : List (Call C.Body))
    (k' : Kernel C) : Prop :=
  ∃ earlier later m r m', calls = earlier ++ .block :: later ∧ Run hooks anyCall k earlier m ∧
    m.tables.current = some t ∧ Call.block.perform hooks m = .ok r m' ∧
    Run hooks anyCall m' later k'

theorem Kernel.tables_of_unblock {r : Reply} (h : (Call.unblock t).perform hooks k = .ok r k') :
    ∃ u, k.tables.unblock t = .ok u ∧ k'.core = { k.core with tables := u } := by
  obtain ⟨_, h⟩ := Act.ok_of_bind_pure h
  exact core_of_unblock h

/-- Who was unblocked awaits no unblock. -/
theorem Kernel.roused_of_rouses (hq : hooks.QueryOnly) (h : k.core.Coherent)
    (hrouses : c.Rouses t r) (hstep : c.perform hooks k = .ok r k')
    (hspawns : k'.spawns < Word.top) : k'.core.Roused t := by
  have hcoherent : k'.core.Coherent := Core.kept_coherent.effect h (Call.effect hq hstep)
  cases hrouses with
  | unblock =>
    obtain ⟨u, hu, hcore⟩ := tables_of_unblock hstep
    have hsame : k'.spawns = k.core.spawns := congrArg Core.spawns hcore
    have hroom : k.core.spawns < Word.top := hsame ▸ hspawns
    obtain ⟨th, hth, _⟩ := Tables.awaits_of_unblock hu
    -- there is somebody to unblock, so the kernel is initialized
    have hup : k.core.initialized = true := by
      apply h.up hroom
      intro hblank
      have hnone : k.tables.threads = .empty := hblank.threads
      rw [hnone] at hth
      cases hth
    have hknown := (h.recorded hroom hup).known t th hth
    rw [hcore] at hcoherent ⊢
    exact ⟨hcoherent, hup, hknown, fun _ =>
      (Tables.readied_of_unblock hu).not_awaits (List.mem_singleton.mpr rfl)⟩
  | create =>
    obtain ⟨r', hcreate, hr⟩ := Act.bind_pure_eq_ok_iff.mp hstep
    cases hr
    rcases core_of_create hcreate with ⟨_, he, _⟩ | ⟨page, pool, u, hid, hup, _, _, hu, hcore⟩
    · cases he
    · cases hid
      have hmore : k'.spawns = k.core.spawns + 1 := congrArg Core.spawns hcore
      have hnext := (h.recorded (by omega) hup).nextId
      rw [Word.saturate_eq_self (by omega)] at hnext
      have hknown : k.nextId.val ≤ k.core.spawns + 1 + 1 := Nat.le_of_eq hnext
      rw [hcore] at hcoherent ⊢
      exact ⟨hcoherent, hup, hknown, fun _ =>
        (Tables.readied_of_unblock hu).not_awaits (List.mem_singleton.mpr rfl)⟩

/-- Between two unblocks of a thread it has blocked, the one in its creation being the first. Without
a block in between the second one is fatal. -/
theorem wake_ups_not_doubled (hq : hooks.QueryOnly) (h₀ : Kernel.ofConfig config client = .ok k₀)
    (hrun : Run hooks anyCall k₀ calls k₁) (hfirst : c.perform hooks k₁ = .ok r k₂)
    (hrouses : c.Rouses t r) (hbetween : Run hooks anyCall k₂ between k₃)
    (hspawns : k₃.spawns < Word.top) :
    (∀ {r' k₄}, (Call.unblock t).perform hooks k₃ = .ok r' k₄ →
      BlockedDuring hooks t k₂ between k₃) ∧
    (¬ BlockedDuring hooks t k₂ between k₃ →
      ∃ e k₄, (Call.unblock t).perform hooks k₃ = .error e k₄) := by
  have hneeds : ∀ {r' k₄}, (Call.unblock t).perform hooks k₃ = .ok r' k₄ →
      BlockedDuring hooks t k₂ between k₃ := by
    intro r' k₄ hsecond
    rcases hbetween.obeys_or_breaks fun m c => c = .block → m.tables.current ≠ some t
      with hobeys | ⟨earlier, b, later, m, r, m', hcalls, hearlier, hbreaks, hblock, hlater⟩
    · -- the thread never blocked, so it does not await this unblock
      have hroused₂ := Kernel.roused_of_rouses hq (hrun.coherent hq h₀) hrouses hfirst
        (Nat.lt_of_le_of_lt (hbetween.spawns_le hq) hspawns)
      have hroused₃ : k₃.core.Roused t := hobeys.keeps_of_may hq (Core.kept_roused t)
        (fun m c hrule way htaken hway => hrule (htaken.blocks hway)) hroused₂
      obtain ⟨u, hu, _⟩ := Kernel.tables_of_unblock hsecond
      exact absurd (Tables.awaits_of_unblock hu) (hroused₃.settled hspawns)
    · obtain ⟨rfl, hcurrent⟩ := Classical.not_imp.mp hbreaks
      exact ⟨earlier, later, m, r, m', hcalls, hearlier.mono fun _ _ _ => trivial,
        Classical.not_not.mp hcurrent, hblock, hlater⟩
  refine ⟨hneeds, fun hnever => ?_⟩
  cases hsecond : (Call.unblock t).perform hooks k₃ with
  | ok r' k₄ => exact absurd (hneeds hsecond) hnever
  | error e k₄ => exact ⟨e, k₄, rfl⟩

/-- A worker is made, runs and blocks, and is unblocked by the thread that booted. An unblock before it
ran would have been fatal. -/
theorem wake_ups_not_doubled_worker : ∃ k₁ k₂ k₃ : Kernel plainClient,
    plainKernel.after .plain (fun _ _ => true) [.init, .start] = some k₁ ∧
    (Call.create "worker" 31 ()).perform .plain k₁ = .ok (.created (.ok ⟨3⟩)) k₂ ∧
    k₂.after .plain (fun _ _ => true) [.yieldNow, .setLevel .off, .block] = some k₃ ∧
    BlockedDuring .plain ⟨3⟩ k₂ [.yieldNow, .setLevel .off, .block] k₃ ∧
    ∃ e k₄, (Call.unblock ⟨3⟩).perform .plain k₂ = .error e k₄ := by
  have hchecks : (plainKernel.after .plain (fun _ _ => true) [.init, .start]).any (fun k₁ =>
      match (Call.create "worker" 31 ()).perform .plain k₁ with
      | .ok (.created (.ok id)) k₂ => decide (id = ⟨3⟩ ∧ k₂.spawns < Word.top) &&
        (k₂.after .plain (fun _ _ => true) [.yieldNow, .setLevel .off, .block]).any fun k₃ =>
          decide (k₃.spawns < Word.top) &&
            (k₃.after .plain (fun _ _ => true) [.unblock ⟨3⟩]).isSome
      | _ => false) = true := by decide +kernel
  obtain ⟨k₁, hk₁, hchecks⟩ := (Option.any_eq_true _ _).mp hchecks
  have hrun : Run .plain anyCall plainKernel _ k₁ := (Run.of_after hk₁).mono fun _ _ _ => trivial
  split at hchecks
  · next id k₂ hcreate =>
    simp only [Bool.and_eq_true, decide_eq_true_eq] at hchecks
    obtain ⟨⟨rfl, hspawns₂⟩, hchecks⟩ := hchecks
    obtain ⟨k₃, hk₃, hchecks⟩ := (Option.any_eq_true _ _).mp hchecks
    simp only [Bool.and_eq_true, decide_eq_true_eq] at hchecks
    obtain ⟨hspawns₃, hsecond⟩ := hchecks
    obtain ⟨k₄, hk₄⟩ := Option.isSome_iff_exists.mp hsecond
    obtain ⟨r', hunblock⟩ := Kernel.perform_of_after hk₄
    have hbetween : Run .plain anyCall k₂ _ k₃ := (Run.of_after hk₃).mono fun _ _ _ => trivial
    refine ⟨k₁, k₂, k₃, hk₁, hcreate, hk₃, ?_, ?_⟩
    · exact (wake_ups_not_doubled Hooks.queryOnly_plain ofConfig_standard hrun hcreate .create
        hbetween hspawns₃).1 hunblock
    · refine (wake_ups_not_doubled Hooks.queryOnly_plain ofConfig_standard hrun hcreate .create
        .nil hspawns₂).2 ?_
      rintro ⟨earlier, later, _, _, _, hnil, _⟩
      simp at hnil
  · cases hchecks

end RoundRobin
