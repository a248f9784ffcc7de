import RoundRobin.Proofs.Kernel.Coherent
import RoundRobin.Proofs.Kernel.Slice
import RoundRobin.Proofs.Registry

/-!
# Sleepers wake on time

A thread that sleeps until a tick is left alone by everything but the timer: it stays registered under
that tick until the first interrupt that reaches it, and that interrupt puts it into the ready queue,
once. The registry is in order in every state, so its cached tick hides nobody.
-/

namespace RoundRobin

variable {C : Client} {hooks : Hooks C}

/-! ## The registry after each section -/

namespace Tables

variable {β : Type} {t t' : Tables β} {id : ThreadId} {way : Way} {d : Dispatch} {now : Nat}
  {user asks : Bool} {timeSlice : Nat} {s : Sleeper}

theorem sleepers_of_unblock (h : t.unblock id = .ok t') : t'.sleepers = t.sleepers := by
  rw [rest_of_unblock h]

/-- A decision only adds sleepers. -/
theorem sleepers_of_leave (h : t.leave way = .ok (d, t')) :
    t'.sleepers = t.sleepers ∨ ∃ w, way = .sleep w ∧ t'.sleepers =
      { sleepers := SleepRegistry.insert ⟨d.previous, w⟩ t.sleepers.sleepers
        nextWake := min t.sleepers.nextWake w } := by
  have hsleepers := (parting_of_leave h).sleepers
  cases way with
  | block => exact .inl hsleepers
  | exit => exact .inl hsleepers
  | sleep w => exact .inr ⟨w, rfl, hsleepers⟩
  | yield =>
    unfold marked at hsleepers
    dsimp only at hsleepers
    split at hsleepers
    · exact .inl hsleepers
    · exact .inl hsleepers

/-- Who leaves to sleep is registered. -/
theorem registered_of_leave {w : Nat} (h : t.leave (.sleep w) = .ok (d, t')) :
    ⟨d.previous, w⟩ ∈ t'.sleepers.sleepers := by
  rw [(parting_of_leave h).sleepers]
  exact SleepRegistry.mem_insert.mpr (.inl rfl)

theorem ordered_of_leave (hord : t.sleepers.Ordered) (h : t.leave way = .ok (d, t')) :
    t'.sleepers.Ordered := by
  rcases sleepers_of_leave h with hsame | ⟨w, _, hinsert⟩
  · rw [hsame]; exact hord
  · rw [hinsert]; exact hord.insert ⟨d.previous, w⟩

/-- A tick wakes those whose tick has come, in order, whether or not the cached tick says that anybody
may have to be woken. -/
theorem woken_of_tick (hord : t.sleepers.Ordered) (h : t.tick user now timeSlice = .ok (asks, t')) :
    t'.ready.ids = t.ready.ids ++ ((t.sleepers.wake now).1.filter fun i => t.idle ≠ some i) ∧
      t'.sleepers.sleepers = (t.sleepers.wake now).2.sleepers ∧ t'.sleepers.Ordered := by
  obtain ⟨woken, u, c, stats, hw, _, _, _, _, rfl⟩ := tick_eq_ok_iff.mp h
  rcases wakeDue_eq_ok_iff.mp hw with ⟨_, _, hm⟩ | ⟨hdue, _, rfl⟩
  · have hr := readied_of_makeAllReady hm
    have hsleepers : u.sleepers = (t.sleepers.wake now).2 := by rw [hr.rest]
    exact ⟨hr.queue, congrArg SleepRegistry.sleepers hsleepers, hsleepers ▸ hord.wake now⟩
  · -- nobody is due, so a wake would take nobody
    have hall : ∀ a ∈ u.sleepers.sleepers, ¬ SleepRegistry.matured now a = true := by
      intro a ha
      have := hord.lt_of_not_due hdue ha
      simp only [SleepRegistry.matured, decide_eq_true_eq]
      omega
    have hnone : u.sleepers.sleepers.takeWhile (SleepRegistry.matured now) = [] := by
      cases hs : u.sleepers.sleepers with
      | nil => rfl
      | cons a rest => exact List.takeWhile_cons_of_neg (hall a (hs ▸ List.mem_cons_self))
    have hrest : u.sleepers.sleepers.dropWhile (SleepRegistry.matured now) = u.sleepers.sleepers := by
      have := List.takeWhile_append_dropWhile (p := SleepRegistry.matured now)
        (l := u.sleepers.sleepers)
      rwa [hnone, List.nil_append] at this
    refine ⟨?_, ?_, hord⟩
    · show u.ready.ids = _
      simp [SleepRegistry.wake, hnone]
    · exact hrest.symm

/-- A thread sleeps until a tick: it waits in the registry, and nowhere else. -/
structure Sleeps (id : ThreadId) (w : Nat) (t : Tables β) : Prop where
  registered : ⟨id, w⟩ ∈ t.sleepers.sleepers
  once : (t.sleepers.sleepers.map (·.thread)).count id = 1
  blocked : ∃ th, t.threads.find? id = some th ∧ th.status = .blocked ∧ th.wakeTick = w
  notQueued : id ∉ t.ready.ids
  notCurrent : t.current ≠ some id
  notIdle : t.idle ≠ some id

/-- In sound tables a thread sleeps as soon as it is registered. -/
theorem Sound.sleeps {w : Nat} (h : Sound t) (hs : ⟨id, w⟩ ∈ t.sleepers.sleepers) :
    t.Sleeps id w := by
  have hmem : id ∈ t.members .sleeping := List.mem_map_of_mem hs
  have hlink := (h.mem_iff .sleeping nofun id).mp hmem
  obtain ⟨th, hth, hsleeping⟩ := linkOf_eq_some_iff.mp hlink
  obtain ⟨hblocked, hidle⟩ := (h.status_of_link hth).2.1 hsleeping
  refine ⟨hs, ?_, ⟨th, hth, hblocked, h.wakeTick _ hs th hth⟩, fun hready => ?_, fun hc => ?_, hidle⟩
  · exact ((h.nodup .sleeping).count).trans (if_pos hmem)
  · have hother := (h.mem_iff .ready nofun id).mp hready
    rw [hlink] at hother
    cases hother
  · have hother := h.linkOf_current hc
    rw [hlink] at hother
    cases hother

/-- A tick appends all whom it wakes to the queue. -/
theorem Sound.woken_of_tick (hsound : Sound t) (hord : t.sleepers.Ordered)
    (h : t.tick user now timeSlice = .ok (asks, t')) :
    t'.ready.ids = t.ready.ids ++ (t.sleepers.wake now).1 ∧
      t'.sleepers.sleepers = (t.sleepers.wake now).2.sleepers := by
  obtain ⟨hqueue, hsleepers, _⟩ := Tables.woken_of_tick hord h
  -- the idle thread, which is never queued, does not sleep
  have hnotIdle : (t.sleepers.wake now).1.filter (fun i => t.idle ≠ some i)
      = (t.sleepers.wake now).1 := by
    rw [List.filter_eq_self]
    intro i hi
    obtain ⟨s, hs, rfl⟩ := List.mem_map.mp hi
    have hasleep := hsound.sleeps ((List.takeWhile_sublist _).subset hs)
    simpa using hasleep.notIdle
  rw [hnotIdle] at hqueue
  exact ⟨hqueue, hsleepers⟩

/-- A sleeper whose tick has come is handed out once, and is not among the others. -/
theorem Sound.woken_once {w : Nat} (hsound : Sound t) (hord : t.sleepers.Ordered)
    (hs : t.Sleeps id w) (hle : w ≤ now) :
    id ∉ (t.sleepers.wake now).2.sleepers.map (·.thread) ∧ (t.sleepers.wake now).1.count id = 1 := by
  have hwoken : id ∈ (t.sleepers.wake now).1 := hord.mem_woken hs.registered hle
  have hnodup := hsound.nodup .sleeping
  rw [members, ← SleepRegistry.woken_append t.sleepers now, List.nodup_append] at hnodup
  exact ⟨fun hrest => hnodup.2.2 id hwoken id hrest rfl, by rw [hnodup.1.count, if_pos hwoken]⟩

end Tables
namespace Core

variable {s s' : Core C} {c : Call C.Body} {t : ThreadId} {w : Nat}

/-! ## Steps -/

/-- The registry is in order in every state. -/
theorem kept_ordered : Kept (fun s : Core C => s.tables.sleepers.Ordered) where
  later h _ := h
  adopted h _ := h
  hired h _ _ := h
  appointed h _ _ _ := h
  unblocked h ht := by
    show SleepRegistry.Ordered _
    rw [Tables.sleepers_of_unblock ht]
    exact h
  left h _ ht := Tables.ordered_of_leave h ht
  prioritized h _ := h
  ticked h _ _ ht := (Tables.woken_of_tick h ht).2.2
  preempted h ht := Tables.ordered_of_leave h ht

/-- Who is registered stays registered when another thread is hired, unblocked or gives up the
processor. -/
theorem mem_sleepers_of_leave {β : Type} {t t' : Tables β} {way : Way} {d : Dispatch} {a : Sleeper}
    (ha : a ∈ t.sleepers.sleepers) (h : t.leave way = .ok (d, t')) : a ∈ t'.sleepers.sleepers := by
  rcases Tables.sleepers_of_leave h with hsame | ⟨w, _, hinsert⟩
  · rw [hsame]; exact ha
  · rw [hinsert]; exact SleepRegistry.mem_insert.mpr (.inr ha)

/-- The handler leaves those alone who have time left. -/
theorem Ticked.mem_sleepers (h : Ticked s s') (hord : s.tables.sleepers.Ordered)
    (hmem : ⟨t, w⟩ ∈ s.tables.sleepers.sleepers) (hlt : s.ticks + 1 < w) :
    ⟨t, w⟩ ∈ s'.tables.sleepers.sleepers := by
  cases h with
  | early => exact hmem
  | @full _ _ t' _ ht =>
    show ⟨t, w⟩ ∈ t'.sleepers.sleepers
    rw [(Tables.woken_of_tick hord ht).2.1]
    exact SleepRegistry.mem_wake_of_lt hmem hlt

/-- No call but a timer interrupt that reaches its tick touches a sleeper. -/
theorem Effect.mem_sleepers (h : Effect s c s') (hord : s.tables.sleepers.Ordered)
    (hmem : ⟨t, w⟩ ∈ s.tables.sleepers.sleepers) (hlt : c.isTimer = true → s.ticks + 1 < w) :
    ⟨t, w⟩ ∈ s'.tables.sleepers.sleepers := by
  cases h with
  | nothing => exact hmem
  | advance => exact hmem
  | adopt => exact hmem
  | start => exact hmem
  | create _ _ _ hunblock => exact Tables.sleepers_of_unblock hunblock ▸ hmem
  | unblock hunblock => exact Tables.sleepers_of_unblock hunblock ▸ hmem
  | leave _ hleave => exact mem_sleepers_of_leave hmem hleave
  | prioritize => exact hmem
  | timerInterrupt _ _ ht => exact ht.mem_sleepers hord hmem (hlt rfl)
  | tick _ _ ht => exact ht.mem_sleepers hord hmem (hlt rfl)
  | preempt _ _ ht _ hleave => exact mem_sleepers_of_leave (ht.mem_sleepers hord hmem (hlt rfl)) hleave

/-- What an interrupt wakes goes to the tail of the queue, and those who are not woken stay registered.
That is all, or a decision follows, for which the current thread may be queued behind them. -/
def Appended (woken : List ThreadId) (s s' : Core C) : Prop :=
  (s'.decisions = s.decisions ∧ s'.tables.ready.ids = s.tables.ready.ids ++ woken) ∨
    ∃ d others, (∀ i ∈ others, s.tables.current = some i) ∧ s'.decisions = d :: s.decisions ∧
      (s.tables.ready.ids ++ woken ++ others).head?.or s.tables.idle = some d.next ∧
      s'.tables.ready.ids = (s.tables.ready.ids ++ woken ++ others).tail ∧
      s'.tables.current = some d.next

/-- The handler wakes those whose tick it reaches. -/
theorem Ticked.woken (h : Ticked s s') (hup : s.initialized = true) (hsound : s.tables.Sound)
    (hord : s.tables.sleepers.Ordered) :
    s'.tables.sleepers.sleepers = (s.tables.sleepers.wake (s.ticks + 1)).2.sleepers ∧
      s'.tables.ready.ids = s.tables.ready.ids ++ (s.tables.sleepers.wake (s.ticks + 1)).1 ∧
      s'.decisions = s.decisions ∧ s'.tables.current = s.tables.current ∧
      s'.tables.idle = s.tables.idle := by
  cases h with
  | early hfresh =>
    rw [hfresh] at hup
    cases hup
  | full _ ht =>
    obtain ⟨hqueue, hsleepers⟩ := hsound.woken_of_tick hord ht
    exact ⟨hsleepers, hqueue, rfl, by rw [Tables.rest_of_tick ht]; rfl,
      by rw [Tables.rest_of_tick ht]; rfl⟩

/-- A timer interrupt puts those whose tick it reaches into the queue, before the decision that it may
end with. -/
theorem Effect.appended (h : Effect s c s') (hc : c.isTimer = true) (hup : s.initialized = true)
    (hsound : s.tables.Sound) (hord : s.tables.sleepers.Ordered) :
    s'.tables.sleepers.sleepers = (s.tables.sleepers.wake (s.ticks + 1)).2.sleepers ∧
      Appended (s.tables.sleepers.wake (s.ticks + 1)).1 s s' := by
  cases h with
  | nothing hother => rw [hother] at hc; cases hc
  | leave hother => rw [hother] at hc; cases hc
  | advance => cases hc
  | adopt => cases hc
  | start => cases hc
  | create => cases hc
  | unblock => cases hc
  | prioritize => cases hc
  | timerInterrupt _ _ ht =>
    obtain ⟨hrest, hqueue, hdecisions, _⟩ := ht.woken hup hsound hord
    exact ⟨hrest, .inl ⟨hdecisions, hqueue⟩⟩
  | tick _ _ ht =>
    obtain ⟨hrest, hqueue, hdecisions, _⟩ := ht.woken hup hsound hord
    exact ⟨hrest, .inl ⟨hdecisions, hqueue⟩⟩
  | @preempt s₁ d u _ _ ht _ hleave =>
    obtain ⟨hrest, hqueue, hdecisions, hcurrent, hidle⟩ := ht.woken hup hsound hord
    have hparting := Tables.parting_of_leave hleave
    obtain ⟨others, hothers, hnext, hqueue'⟩ := Tables.queue_of_leave hleave
    rw [hqueue] at hnext hqueue'
    rw [hidle] at hnext
    refine ⟨?_, .inr ⟨d, others, fun i hi => ?_, congrArg (d :: ·) hdecisions, hnext, hqueue',
      hparting.current⟩⟩
    · -- who yields does not fall asleep
      rcases Tables.sleepers_of_leave hleave with hsame | ⟨_, hway, _⟩
      · show u.sleepers.sleepers = _
        rw [hsame, hrest]
      · cases hway
    · rw [hothers i hi, ← hcurrent]
      exact hparting.previous

/-- A timer interrupt that reaches the tick of a sleeper puts it into the queue, before the decision
that it may end with. -/
theorem Effect.woken (h : Effect s c s') (hc : c.isTimer = true) (hup : s.initialized = true)
    (hsound : s.tables.Sound) (hord : s.tables.sleepers.Ordered) (hs : s.tables.Sleeps t w)
    (hle : w ≤ s.ticks + 1) :
    t ∉ s'.tables.sleepers.sleepers.map (·.thread) ∧ ∃ woken, woken.count t = 1 ∧
      ((s'.decisions = s.decisions ∧ s'.tables.ready.ids = s.tables.ready.ids ++ woken) ∨
        ∃ d others, t ∉ others ∧ s'.decisions = d :: s.decisions ∧
          (s.tables.ready.ids ++ woken ++ others).head? = some d.next ∧
          s'.tables.ready.ids = (s.tables.ready.ids ++ woken ++ others).tail ∧
          s'.tables.current = some d.next) := by
  obtain ⟨hrest, happended⟩ := h.appended hc hup hsound hord
  obtain ⟨hgone, hone⟩ := hsound.woken_once hord hs hle
  refine ⟨hrest ▸ hgone, _, hone, ?_⟩
  rcases happended with hcalm | ⟨d, others, hothers, hdecisions, hnext, hqueue, hcurrent⟩
  · exact .inl hcalm
  · refine .inr ⟨d, others, fun hmem => hs.notCurrent (hothers t hmem), hdecisions, ?_, hqueue,
      hcurrent⟩
    -- somebody was woken, so the idle thread is not chosen for want of another one
    cases hlist : s.tables.ready.ids ++ (s.tables.sleepers.wake (s.ticks + 1)).1 ++ others with
    | nil =>
      simp only [List.append_eq_nil_iff] at hlist
      rw [hlist.1.2] at hone
      cases hone
    | cons a rest =>
      rw [hlist] at hnext
      exact hnext

end Core

/-! ## Asleep and woken -/

/-- A timer interrupt is the only call that needs a condition: it must not reach the tick `w`. -/
def notReached (w : Nat) (k : Kernel C) (c : Call C.Body) : Prop :=
  c.isTimer = true → k.clock.ticks + 1 < w

/-- A thread was asleep from `k` on, and got the processor at none of the decisions since. -/
structure Asleep (t : ThreadId) (w : Nat) (k k' : Kernel C) : Prop where
  sleeps : k'.tables.Sleeps t w
  notChosen : ∃ made, k'.decisions = made ++ k.decisions ∧ ∀ d ∈ made, d.next ≠ t

/-- The call that led from `k` to `k'` took a thread out of the registry and put it into the queue,
once. It ends there, or after a decision for which the thread that was current (one of the `others`)
may have been queued as well. -/
structure Woken (t : ThreadId) (k k' : Kernel C) : Prop where
  notQueued : t ∉ k.tables.ready.ids
  unregistered : t ∉ k'.tables.sleepers.sleepers.map (·.thread)
  queued : ∃ woken, woken.count t = 1 ∧
    ((k'.decisions = k.decisions ∧ k'.tables.ready.ids = k.tables.ready.ids ++ woken) ∨
      ∃ d others, t ∉ others ∧ k'.decisions = d :: k.decisions ∧
        (k.tables.ready.ids ++ woken ++ others).head? = some d.next ∧
        k'.tables.ready.ids = (k.tables.ready.ids ++ woken ++ others).tail ∧
        k'.tables.current = some d.next)

/-- A kernel that a run may lead to. -/
structure Kernel.Reached (k : Kernel C) : Prop where
  coherent : k.core.Coherent
  ordered : k.tables.sleepers.Ordered

variable {allowed : Kernel C → Call C.Body → Prop} {config : Config} {client : C.State}
  {k₀ k k' : Kernel C} {calls : List (Call C.Body)} {c : Call C.Body} {r : Reply} {t : ThreadId}
  {w n : Nat}

theorem Kernel.reached_of_ofConfig (h : Kernel.ofConfig config client = .ok k) : k.Reached := by
  refine ⟨coherent_of_ofConfig h, ?_⟩
  obtain ⟨_, _, rfl⟩ := eq_of_ofConfig h
  exact SleepRegistry.ordered_empty

theorem Run.reached (hq : hooks.QueryOnly) (hrun : Run hooks allowed k calls k') (h : k.Reached) :
    k'.Reached :=
  ⟨hrun.keeps hq Core.kept_coherent h.coherent, hrun.keeps hq Core.kept_ordered h.ordered⟩

/-- Nobody sleeps on a kernel that is not initialized. -/
theorem Kernel.Reached.up {s : Sleeper} (h : k.Reached) (hspawns : k.spawns < Word.top)
    (hs : s ∈ k.tables.sleepers.sleepers) : k.initialized = true := by
  refine h.coherent.up hspawns fun hblank => ?_
  have hempty : k.tables.sleepers.sleepers = [] := hblank.sleepers
  rw [hempty] at hs
  cases hs

/-- A sleeper stays asleep through every run whose interrupts do not reach its tick. -/
theorem Run.asleep (hq : hooks.QueryOnly) (hrun : Run hooks (notReached w) k calls k')
    (h : k.Reached) (hspawns : k'.spawns < Word.top)
    (hs : ⟨t, w⟩ ∈ k.tables.sleepers.sleepers) : Asleep t w k k' := by
  induction hrun with
  | nil => exact ⟨(h.coherent.recorded hspawns (h.up hspawns hs)).sound.sleeps hs, [], rfl, nofun⟩
  | @snoc calls c r k₁ k₂ run may step ih =>
    have heffect := Call.effect hq step
    have hspawns₁ : k₁.spawns < Word.top :=
      Nat.lt_of_le_of_lt ((Core.kept_spawns k₁.spawns).effect (Nat.le_refl _) heffect) hspawns
    obtain ⟨hsleeps, made, hmade, hchosen⟩ := ih hspawns₁
    have hreached₁ := run.reached hq h
    have hreached₂ : k₂.Reached :=
      ⟨Core.kept_coherent.effect hreached₁.coherent heffect,
        Core.kept_ordered.effect hreached₁.ordered heffect⟩
    -- the step leaves it in the registry, and soundness says the rest
    have hmem := heffect.mem_sleepers hreached₁.ordered hsleeps.registered may
    have hup₂ := hreached₂.up hspawns hmem
    have hsleeps₂ : k₂.tables.Sleeps t w :=
      (hreached₂.coherent.recorded hspawns hup₂).sound.sleeps hmem
    refine ⟨hsleeps₂, ?_⟩
    rcases heffect.decisions with hsame | ⟨d, hd, hcurrent⟩
    · exact ⟨made, hsame.trans hmade, hchosen⟩
    · refine ⟨d :: made, ?_, fun d' hd' => ?_⟩
      · show k₂.core.decisions = _
        rw [hd]
        exact congrArg (d :: ·) hmade
      · rcases List.mem_cons.mp hd' with rfl | hd'
        · -- a thread that was chosen would be current, and not asleep
          exact fun heq => hsleeps₂.notCurrent (heq ▸ hcurrent)
        · exact hchosen d' hd'

/-- The first interrupt that reaches the tick of a sleeper wakes it. -/
theorem Kernel.Reached.woken (hq : hooks.QueryOnly) (h : k.Reached) (hspawns : k.spawns < Word.top)
    (hs : k.tables.Sleeps t w) (hle : w ≤ k.clock.ticks + 1) (hc : c.isTimer = true)
    (hstep : c.perform hooks k = .ok r k') : Woken t k k' := by
  have heffect := Call.effect hq hstep
  have hup := h.up hspawns hs.registered
  have hsound := (h.coherent.recorded hspawns hup).sound
  obtain ⟨hgone, hwoken⟩ := heffect.woken hc hup hsound h.ordered hs hle
  exact ⟨hs.notQueued, hgone, hwoken⟩

/-! ## The clock along a run -/

/-- Whether a call leaves the clock to the interrupts. -/
def Call.keepsTime {β : Type} : Call β → Bool
  | advanceClock => false
  | _ => true

/-- Only interrupts advance the clock. -/
def noJump (_ : Kernel C) (c : Call C.Body) : Prop := c.keepsTime = true

/-- The clock does not go back. -/
theorem Run.ticks_le (hq : hooks.QueryOnly) (hrun : Run hooks allowed k calls k') :
    k.clock.ticks ≤ k'.clock.ticks := by
  induction hrun with
  | nil => exact Nat.le_refl _
  | snoc _ _ step ih => exact Nat.le_trans ih (Call.effect hq step).ticks.1

/-- When only interrupts advance the clock, it counts them. -/
theorem Run.ticks_eq (hq : hooks.QueryOnly) (hrun : Run hooks noJump k calls k') :
    k'.clock.ticks = k.clock.ticks + timerCalls calls := by
  induction hrun with
  | nil => rfl
  | @snoc calls c r k₁ k₂ run may step ih =>
    -- no call of this run sets the clock forward by itself
    have hregular : c ≠ .advanceClock := by
      intro hc
      rw [hc] at may
      cases may
    have hstep := (Call.effect hq step).ticks.2 hregular
    rw [timerCalls_snoc]
    simp only [Kernel.core] at hstep
    omega

/-- Without an interrupt no tick is reached. -/
theorem Run.notReached_of_none (hrun : Run hooks allowed k calls k') (hnone : timerCalls calls = 0) :
    Run hooks (notReached w) k calls k' := by
  induction hrun with
  | nil => exact .nil
  | @snoc calls c r k₁ k₂ run may step ih =>
    rw [timerCalls_snoc] at hnone
    refine (ih (by omega)).snoc (fun hc => ?_) step
    rw [if_pos hc] at hnone
    omega

/-- Before `n` interrupts have come no tick is reached that is `n` ticks ahead. -/
theorem Run.notReached_of_few (hq : hooks.QueryOnly) (hrun : Run hooks noJump k calls k')
    (hfew : timerCalls calls < n) : Run hooks (notReached (k.clock.ticks + n)) k calls k' := by
  induction hrun with
  | nil => exact .nil
  | @snoc calls c r k₁ k₂ run may step ih =>
    have hticks := run.ticks_eq hq
    rw [timerCalls_snoc] at hfew
    refine (ih (by omega)).snoc (fun hc => ?_) step
    rw [if_pos hc] at hfew
    omega

/-! ## Waking on time -/

/-- In `k` a thread sleeps until the tick `w`, and it will wake on time. -/
structure WakesAt (hooks : Hooks C) (t : ThreadId) (w : Nat) (k : Kernel C) : Prop where
  /-- It stays asleep until an interrupt reaches its tick, -/
  asleep : ∀ {calls k₁}, Run hooks (notReached w) k calls k₁ → k₁.spawns < Word.top →
    Asleep t w k k₁
  /-- and the first one that does wakes it. -/
  woken : ∀ {calls k₁ k₂} {c : Call C.Body} {r : Reply}, Run hooks (notReached w) k calls k₁ →
    k₁.spawns < Word.top → c.isTimer = true → w ≤ k₁.clock.ticks + 1 →
    c.perform hooks k₁ = .ok r k₂ → Woken t k₁ k₂

/-- In `k` a thread sleeps until the tick `w`, and along the runs that are `allowed` it wakes at the
interrupt number `n`. -/
structure WakesAfter (hooks : Hooks C) (allowed : Kernel C → Call C.Body → Prop) (t : ThreadId)
    (w n : Nat) (k : Kernel C) : Prop where
  /-- It sleeps through the interrupts before that one, -/
  asleep : ∀ {calls k₁}, Run hooks allowed k calls k₁ → k₁.spawns < Word.top →
    timerCalls calls < n → Asleep t w k k₁
  /-- and that one wakes it. -/
  woken : ∀ {calls k₁ k₂} {c : Call C.Body} {r : Reply}, Run hooks allowed k calls k₁ →
    k₁.spawns < Word.top → timerCalls calls + 1 = n → c.isTimer = true →
    c.perform hooks k₁ = .ok r k₂ → Woken t k₁ k₂

/-- Whoever is registered will wake on time. -/
theorem Kernel.Reached.wakesAt (hq : hooks.QueryOnly) (h : k.Reached)
    (hs : ⟨t, w⟩ ∈ k.tables.sleepers.sleepers) : WakesAt hooks t w k := by
  constructor
  · intro calls k₁ hrun hspawns
    exact hrun.asleep hq h hspawns hs
  · intro calls k₁ k₂ c r hrun hspawns hc hle hstep
    -- up to that interrupt the thread slept, whatever was called
    have hasleep := hrun.asleep hq h hspawns hs
    exact (hrun.reached hq h).woken hq hspawns hasleep.sleeps hle hc hstep

/-- Who sleeps until a tick that the next interrupt reaches wakes at that one, even if the clock is
advanced before it. -/
theorem WakesAt.next (hq : hooks.QueryOnly) (h : WakesAt hooks t w k) (hle : w ≤ k.clock.ticks + 1) :
    WakesAfter hooks allowed t w 1 k := by
  constructor
  · intro calls k₁ hrun hspawns hfew
    exact h.asleep (hrun.notReached_of_none (by omega)) hspawns
  · intro calls k₁ k₂ c r hrun hspawns hcount hc hstep
    have hticks := hrun.ticks_le hq
    exact h.woken (hrun.notReached_of_none (by omega)) hspawns hc (by omega) hstep

/-- Who sleeps for `n` ticks wakes at the interrupt number `n`. -/
theorem WakesAt.nth (hq : hooks.QueryOnly) (h : WakesAt hooks t (k.clock.ticks + n) k) :
    WakesAfter hooks noJump t (k.clock.ticks + n) n k := by
  constructor
  · intro calls k₁ hrun hspawns hfew
    exact h.asleep (hrun.notReached_of_few hq hfew) hspawns
  · intro calls k₁ k₂ c r hrun hspawns hcount hc hstep
    have hticks := hrun.ticks_eq hq
    exact h.woken (hrun.notReached_of_few hq (by omega)) hspawns hc (by omega) hstep

/-- Falling asleep takes no time. -/
theorem registered_of_sleepUntil {u : Unit} (hq : hooks.QueryOnly) (h : k.Reached)
    (ht : k.tables.current = some t) (hsleep : Kernel.sleepUntil hooks w k = .ok u k') :
    k'.Reached ∧ ⟨t, w⟩ ∈ k'.tables.sleepers.sleepers ∧ k'.clock.ticks = k.clock.ticks := by
  obtain ⟨d, u, hleave, hcore⟩ := Kernel.core_of_sleepUntil hq hsleep
  have hparting := Tables.parting_of_leave hleave
  -- who is registered is who was current
  have hprevious : d.previous = t := by
    have hsame := hparting.previous
    rw [ht, Option.some.injEq] at hsame
    exact hsame.symm
  refine ⟨⟨?_, ?_⟩, ?_, congrArg Core.ticks hcore⟩
  · rw [hcore]
    exact Core.kept_coherent.left h.coherent trivial hleave
  · show k'.core.tables.sleepers.Ordered
    rw [hcore]
    exact Core.kept_ordered.left h.ordered trivial hleave
  · show _ ∈ k'.core.tables.sleepers.sleepers
    rw [hcore]
    exact hprevious ▸ Tables.registered_of_leave hleave

variable {before : List (Call C.Body)}

/-- Sleepers are never resumed early and never missed. Whatever is called, a thread that sleeps until a
tick stays asleep until the first interrupt that reaches it, and that one wakes it. So a tick in the
past is over at the next interrupt, and when only interrupts advance the clock a sleep of `n` ticks is
over at the interrupt number `n`, or at the first one if `n` is zero. -/
theorem sleepers_wake_on_time (hq : hooks.QueryOnly) (h₀ : Kernel.ofConfig config client = .ok k₀)
    (hbefore : Run hooks anyCall k₀ before k) (ht : k.tables.current = some t) :
    (∀ w k', Kernel.sleepUntil hooks w k = .ok () k' → WakesAt hooks t w k' ∧
      (w ≤ k.clock.ticks → WakesAfter hooks anyCall t w 1 k')) ∧
    (∀ n k', Kernel.sleep hooks n k = .ok () k' → k.clock.ticks + n ≤ Word.top →
      WakesAfter hooks noJump t (k.clock.ticks + n) (max 1 n) k') := by
  have hreached := hbefore.reached hq (Kernel.reached_of_ofConfig h₀)
  constructor
  · intro w k' hsleep
    obtain ⟨hreached', hs, hticks⟩ := registered_of_sleepUntil hq hreached ht hsleep
    have hwakes := hreached'.wakesAt hq hs
    exact ⟨hwakes, fun hpast => hwakes.next hq (by omega)⟩
  · intro n k' hsleep hroom
    have hdeadline : k.clock.deadline n = k.clock.ticks + n := Word.saturate_eq_self hroom
    have hsleep := Kernel.sleepUntil_of_sleep hsleep
    rw [hdeadline] at hsleep
    obtain ⟨hreached', hs, hticks⟩ := registered_of_sleepUntil hq hreached ht hsleep
    have hwakes := hreached'.wakesAt hq hs
    by_cases hzero : n = 0
    · -- the tick is this one, and still the thread waits for an interrupt
      rw [hzero] at hwakes ⊢
      exact hwakes.next hq (by omega)
    · rw [← hticks] at hwakes ⊢
      rw [Nat.max_eq_right (by omega)]
      exact hwakes.nth hq

/-- The thread that booted sleeps for two ticks, through the first of two interrupts. -/
theorem sleepers_wake_on_time_boot : ∃ k k' k₁ k₂ : Kernel plainClient,
    plainKernel.after .plain (fun _ _ => true) [.init, .start] = some k ∧
    Kernel.sleep .plain 2 k = .ok () k' ∧
    k'.after .plain (fun _ c => c.keepsTime) [.setLevel .off, .onTimerInterrupt] = some k₁ ∧
    k₁.after .plain (fun _ _ => true) [.onTimerInterrupt] = some k₂ ∧
    Asleep ⟨1⟩ 2 k' k₁ ∧ Woken ⟨1⟩ k₁ k₂ := by
  have hchecks : (plainKernel.after .plain (fun _ _ => true) [.init, .start]).any (fun k =>
      decide (k.tables.current = some ⟨1⟩) && decide (k.clock.ticks = 0) &&
      (k.after .plain (fun _ _ => true) [.sleep 2]).any (fun k' =>
        (k'.after .plain (fun _ c => c.keepsTime) [.setLevel .off, .onTimerInterrupt]).any
          (fun k₁ => decide (k₁.spawns < Word.top) &&
            (k₁.after .plain (fun _ _ => true) [.onTimerInterrupt]).isSome))) = true := by
    decide +kernel
  obtain ⟨k, hk, hchecks⟩ := (Option.any_eq_true _ _).mp hchecks
  rw [Bool.and_eq_true, Bool.and_eq_true, decide_eq_true_eq, decide_eq_true_eq] at hchecks
  obtain ⟨⟨ht, hticks⟩, hchecks⟩ := hchecks
  obtain ⟨k', hk', hchecks⟩ := (Option.any_eq_true _ _).mp hchecks
  obtain ⟨k₁, hk₁, hchecks⟩ := (Option.any_eq_true _ _).mp hchecks
  rw [Bool.and_eq_true, decide_eq_true_eq] at hchecks
  obtain ⟨hspawns, hsome⟩ := hchecks
  obtain ⟨k₂, hk₂⟩ := Option.isSome_iff_exists.mp hsome
  obtain ⟨r, hsleep⟩ := Kernel.perform_of_after hk'
  obtain ⟨_, hsleep⟩ := Act.ok_of_bind_pure hsleep
  obtain ⟨r', hlast⟩ := Kernel.perform_of_after hk₂
  have hwakes := (sleepers_wake_on_time Hooks.queryOnly_plain ofConfig_standard
    ((Run.of_after hk).mono fun _ _ _ => trivial) ht).2 2 k' hsleep (by rw [hticks]; decide)
  rw [hticks] at hwakes
  have hrun : Run .plain noJump k' [.setLevel .off, .onTimerInterrupt] k₁ := Run.of_after hk₁
  exact ⟨k, k', k₁, k₂, hk, hsleep, hk₁, hk₂, hwakes.asleep hrun hspawns (by decide),
    hwakes.woken hrun hspawns rfl rfl hlast⟩

end RoundRobin
