import RoundRobin.Proofs.Sleeping

/-!
# Who changes status

A call changes the status of few threads, and of each for one reason: it ran or is to run, it was
unblocked, its tick came, it was just made, or it was dead and is removed. Everybody else is in the
status in which it was, whatever else the call did.
-/

namespace RoundRobin

variable {C : Client} {hooks : Hooks C}

/-! ## Statuses after each section -/

namespace Tables

variable {β : Type} {t t' : Tables β} {i id : ThreadId} {th : Thread β} {status : Status} {way : Way}
  {d : Dispatch} {now timeSlice : Nat} {user asks : Bool}

/-- A tick readies those who sleep and whose tick has come. -/
theorem statusOf_of_tick (h : t.tick user now timeSlice = .ok (asks, t'))
    (hi : t'.statusOf i ≠ t.statusOf i) : ∃ w, ⟨i, w⟩ ∈ t.sleepers.sleepers ∧ w ≤ now := by
  obtain ⟨woken, u, c, stats, hw, _, _, _, _, rfl⟩ := tick_eq_ok_iff.mp h
  rcases wakeDue_eq_ok_iff.mp hw with ⟨_, _, hm⟩ | ⟨_, _, rfl⟩
  · have hwoken : i ∈ (t.sleepers.wake now).1 := by
      refine Classical.not_not.mp fun hout => hi ?_
      exact (readied_of_makeAllReady hm).statusOf hout
    obtain ⟨s, hs, rfl⟩ := List.mem_map.mp hwoken
    have hmatured := List.all_eq_true.mp List.all_takeWhile s hs
    exact ⟨s.wakeTick, (List.takeWhile_sublist _).subset hs, of_decide_eq_true hmatured⟩
  · exact absurd rfl hi

/-- Whoever gets the processor from another thread was ready, the idle thread apart. -/
theorem Sound.statusOf_next (hsound : Sound t) (h : t.leave way = .ok (d, t'))
    (hne : d.next ≠ d.previous) :
    t.statusOf d.next = some .ready ∨ t.idle = some d.next := by
  obtain ⟨more, honly, hhead, _⟩ := queue_of_leave h
  rcases head_or_idle hhead with ⟨rest, hqueue⟩ | ⟨_, hidle⟩
  · have hin : d.next ∈ t.ready.ids ++ more := by
      rw [hqueue]
      exact List.mem_cons_self
    rcases List.mem_append.mp hin with hready | hmore
    · obtain ⟨th, hth, hlink⟩ := (hsound.mem_iff_link (l := .ready) nofun).mp hready
      exact .inl (statusOf_eq_some_iff.mpr ⟨th, hth, ((hsound.status_of_link hth).1 hlink).1⟩)
    · exact absurd (honly d.next hmore) hne
  · exact .inr hidle

/-- A decision stops one thread, starts another one, and removes the dead. -/
theorem Sound.statusOf_of_leave (hsound : Sound t) (h : t.leave way = .ok (d, t'))
    (hi : t'.statusOf i ≠ t.statusOf i) :
    t.current = some i ∨
      (t'.current = some i ∧ (t.statusOf i = some .ready ∨ t.idle = some i)) ∨
      (i ∈ t.reclaim ∧ t'.statusOf i = none) := by
  have hparting := parting_of_leave h
  by_cases hprevious : i = d.previous
  · exact .inl (hprevious ▸ hparting.previous)
  · by_cases hnext : i = d.next
    · subst hnext
      exact .inr (.inl ⟨hparting.current, hsound.statusOf_next h hprevious⟩)
    · have hothers := hparting.others i hprevious hnext
      by_cases hdead : i ∈ t.reclaim
      · rw [if_pos hdead] at hothers
        exact .inr (.inr ⟨hdead, by rw [statusOf, hothers, Option.map_none]⟩)
      · rw [if_neg hdead] at hothers
        exact absurd (congrArg (Option.map Thread.status) hothers) hi

end Tables

/-! ## Reasons -/

namespace Core

variable {s s' s₁ : Core C} {c : Call C.Body} {i : ThreadId}

/-- Why a thread may be in another status after a call than it was before. -/
inductive Entitled (c : Call C.Body) (s s' : Core C) (i : ThreadId) : Prop where
  /-- It ran. -/
  | ran (current : s.tables.current = some i)
  /-- It is to run now, and waited for that. -/
  | runs (current : s'.tables.current = some i)
      (waited : s.tables.statusOf i = some .ready ∨ s.tables.idle = some i)
  | unblocked (call : c = .unblock i) (waited : s.tables.statusOf i = some .blocked)
  /-- It slept until a tick that this timer interrupt has reached. -/
  | woken {w : Nat} (timer : c.isTimer = true) (asleep : ⟨i, w⟩ ∈ s.tables.sleepers.sleepers)
      (due : w ≤ s'.ticks)
  /-- It was made just now, under the id that was next. -/
  | made (fresh : s.tables.statusOf i = none) (next : i = s.nextId)
      (counted : s'.spawns = s.spawns + 1)
  /-- It waited to be reclaimed, and is gone. -/
  | removed (pending : i ∈ s.tables.reclaim) (gone : s'.tables.statusOf i = none)

/-- What a decision alone does. -/
theorem entitled_left {t : Tables C.Body} {way : Way} {d : Dispatch} (hsound : s.tables.Sound)
    (h : s.tables.leave way = .ok (d, t)) (hi : t.statusOf i ≠ s.tables.statusOf i) :
    Entitled c s (s.left d t) i := by
  rcases hsound.statusOf_of_leave h hi with hran | ⟨hruns, hwaited⟩ | ⟨hpending, hgone⟩
  · exact .ran hran
  · exact .runs hruns hwaited
  · exact .removed hpending hgone

/-- What the handler alone does. -/
theorem Ticked.woken_of_statusOf (h : Ticked s s')
    (hi : s'.tables.statusOf i ≠ s.tables.statusOf i) :
    ∃ w, ⟨i, w⟩ ∈ s.tables.sleepers.sleepers ∧ w ≤ s'.ticks := by
  cases h with
  | early => exact absurd rfl hi
  | full _ ht => exact Tables.statusOf_of_tick ht hi

/-- A thread whose status differs after a handler and a decision was woken by the one or moved by the
other. -/
theorem entitled_preempted {t : Tables C.Body} {d : Dispatch} (hsound : s.tables.Sound)
    (hc : c.isTimer = true) (hticked : Ticked s s₁) (h : s₁.tables.leave .yield = .ok (d, t))
    (hi : t.statusOf i ≠ s.tables.statusOf i) : Entitled c s (s₁.answered.left d t) i := by
  obtain ⟨hsteady, _, hcurrent, hkeeps, _⟩ := hticked.steady
  have hidle : s₁.tables.idle = s.tables.idle := by
    cases hticked with
    | early => rfl
    | full _ ht =>
      rw [Tables.rest_of_tick ht]
      rfl
  by_cases hsame : s₁.tables.statusOf i = s.tables.statusOf i
  · rw [← hsame] at hi
    rcases (hkeeps hsound).statusOf_of_leave h hi with hran | ⟨hruns, hwaited⟩ | ⟨hpending, hgone⟩
    · exact .ran (hcurrent ▸ hran)
    · rw [hsame, hidle] at hwaited
      exact .runs hruns hwaited
    · exact .removed (hsteady.reclaim ▸ hpending) hgone
  · obtain ⟨w, hasleep, hdue⟩ := hticked.woken_of_statusOf hsame
    exact .woken hc hasleep hdue

/-- Every change of a status has one of these reasons. -/
theorem Effect.entitled (h : Effect s c s') (hup : s.initialized = true) (hrec : s.Recorded)
    (hroom : s'.spawns < Word.top) (hi : s'.tables.statusOf i ≠ s.tables.statusOf i) :
    Entitled c s s' i := by
  have hsound := hrec.sound
  -- a new thread is under an id that was free
  have hfresh : s.spawns + 1 < Word.top → s.tables.statusOf s.nextId = none := by
    intro hless
    rw [Tables.statusOf, hrec.fresh hless, Option.map_none]
  cases h with
  | nothing => exact absurd rfl hi
  | advance => exact absurd rfl hi
  | adopt hdown =>
    rw [hdown] at hup
    cases hup
  | start =>
    have hnew : i = s.nextId := by
      refine Classical.not_not.mp fun hne => hi ?_
      exact Tables.statusOf_insertThread hne
    exact .made (hnew ▸ hfresh hroom) hnew rfl
  | create _ _ _ hunblock =>
    have hnew : i = s.nextId := by
      refine Classical.not_not.mp fun hne => hi ?_
      have hreadied := Tables.readied_of_unblock hunblock
      refine (hreadied.statusOf fun hin => hne (List.mem_singleton.mp hin)).trans ?_
      exact Tables.statusOf_insertThread hne
    exact .made (hnew ▸ hfresh hroom) hnew rfl
  | @unblock id _ hunblock =>
    have hreadied := Tables.readied_of_unblock hunblock
    have hid : i = id := by
      refine Classical.not_not.mp fun hne => hi ?_
      exact hreadied.statusOf fun hin => hne (List.mem_singleton.mp hin)
    subst hid
    obtain ⟨⟨th, hth, _, hblocked, _⟩, _⟩ := Tables.unblock_eq_ok_iff.mp hunblock
    exact .unblocked rfl (Tables.statusOf_eq_some_iff.mpr ⟨th, hth, hblocked⟩)
  | leave _ hleave => exact entitled_left hsound hleave hi
  | prioritize =>
    refine absurd ?_ hi
    exact Tables.statusOf_modifyThread fun _ => ⟨rfl, rfl⟩
  | timerInterrupt _ _ ht =>
    obtain ⟨w, hasleep, hdue⟩ := ht.woken_of_statusOf hi
    exact .woken rfl hasleep hdue
  | tick _ _ ht =>
    obtain ⟨w, hasleep, hdue⟩ := ht.woken_of_statusOf hi
    exact .woken rfl hasleep hdue
  | preempt _ _ ht _ hleave => exact entitled_preempted hsound rfl ht hleave hi

/-- Who is blocked is neither running nor ready, so it needs an unblock or its tick. -/
theorem Entitled.of_blocked (h : Entitled c s s' i) (hsound : s.tables.Sound)
    (hblocked : s.tables.statusOf i = some .blocked) (hidle : s.tables.idle ≠ some i) :
    c = .unblock i ∨
      c.isTimer = true ∧ ∃ w, ⟨i, w⟩ ∈ s.tables.sleepers.sleepers ∧ w ≤ s'.ticks := by
  obtain ⟨th, hth, hst⟩ := Tables.statusOf_eq_some_iff.mp hblocked
  cases h with
  | ran hc =>
    rw [(hsound.running_iff hth).mpr hc] at hst
    cases hst
  | runs _ hwaited =>
    rcases hwaited with hready | heq
    · rw [hblocked] at hready
      cases hready
    · exact absurd heq hidle
  | unblocked hcall => exact .inl hcall
  | woken htimer hasleep hdue => exact .inr ⟨htimer, _, hasleep, hdue⟩
  | made hfresh =>
    rw [hblocked] at hfresh
    cases hfresh
  | removed hpending =>
    refine absurd hpending (hsound.not_mem_reclaim hth ?_)
    rw [hst]
    exact nofun

/-- Who is dead can only be removed. -/
theorem Entitled.of_dying (h : Entitled c s s' i) (hsound : s.tables.Sound)
    (hdying : s.tables.statusOf i = some .dying) (hidle : s.tables.idle ≠ some i) :
    s'.tables.statusOf i = none := by
  obtain ⟨th, hth, hst⟩ := Tables.statusOf_eq_some_iff.mp hdying
  cases h with
  | ran hc =>
    rw [(hsound.running_iff hth).mpr hc] at hst
    cases hst
  | runs _ hwaited =>
    rcases hwaited with hready | heq
    · rw [hdying] at hready
      cases hready
    · exact absurd heq hidle
  | unblocked _ hblocked =>
    rw [hdying] at hblocked
    cases hblocked
  | woken _ hasleep =>
    have hin : i ∈ s.tables.members .sleeping := List.mem_map_of_mem hasleep
    exact absurd hst (hsound.alive_of_mem (.inr rfl) hin hth)
  | made hfresh =>
    rw [hdying] at hfresh
    cases hfresh
  | removed _ hgone => exact hgone

end Core

/-! ## Every call -/

variable {config : Config} {client : C.State} {k₀ k k' : Kernel C} {calls : List (Call C.Body)}
  {c : Call C.Body} {r : Reply}

/-- What a call that led from `k` to `k'` did to the statuses of threads. -/
structure OnlyEntitled (c : Call C.Body) (r : Reply) (k k' : Kernel C) : Prop where
  /-- Whose status differs was entitled to that. -/
  entitled : ∀ i, k'.statusOf i ≠ k.statusOf i → Core.Entitled c k.core k'.core i
  /-- The thread that was made is the one that the reply names. -/
  created : ∀ i, r = .created (.ok i) → i = k.nextId
  /-- Who waits goes on waiting until it is unblocked or its tick comes. -/
  blocked : ∀ i, k.statusOf i = some .blocked → k.tables.idle ≠ some i →
    k'.statusOf i ≠ some .blocked → c = .unblock i ∨
      c.isTimer = true ∧ ∃ w, ⟨i, w⟩ ∈ k.tables.sleepers.sleepers ∧ w ≤ k'.clock.ticks
  /-- Who is dead is dead until it is removed. -/
  dying : ∀ i, k.statusOf i = some .dying → k.tables.idle ≠ some i →
    k'.statusOf i ≠ some .dying → k'.statusOf i = none

/-- In whatever state and by whatever call, only the entitled threads change status. -/
theorem only_entitled_change_status (hq : hooks.QueryOnly)
    (h₀ : Kernel.ofConfig config client = .ok k₀) (hrun : Run hooks anyCall k₀ calls k)
    (hup : k.initialized = true) (hstep : c.perform hooks k = .ok r k')
    (hspawns : k'.spawns < Word.top) : OnlyEntitled c r k k' := by
  have heffect := Call.effect hq hstep
  have hbefore : k.spawns < Word.top :=
    Nat.lt_of_le_of_lt (Kernel.spawns_le_of_perform hq hstep) hspawns
  have hrec := (hrun.coherent hq h₀).recorded hbefore hup
  have hentitled : ∀ i, k'.statusOf i ≠ k.statusOf i → Core.Entitled c k.core k'.core i :=
    fun i hi => heffect.entitled hup hrec hspawns hi
  constructor
  case entitled => exact hentitled
  case created =>
    rintro i rfl
    exact Call.nextId_of_created hstep
  case blocked =>
    intro i hblocked hidle hleft
    have hi : k'.statusOf i ≠ k.statusOf i := by
      rw [hblocked]
      exact hleft
    exact (hentitled i hi).of_blocked hrec.sound hblocked hidle
  case dying =>
    intro i hdying hidle hleft
    have hi : k'.statusOf i ≠ k.statusOf i := by
      rw [hdying]
      exact hleft
    exact (hentitled i hi).of_dying hrec.sound hdying hidle

/-- The thread that booted sleeps until the tick of an interrupt, which readies it: it was entitled to
that, and the worker that the interrupt was charged to runs on. -/
theorem only_entitled_change_status_wake : ∃ k k' : Kernel plainClient,
    plainKernel.after .plain (fun _ _ => true)
      [.init, .start, .create "worker" 31 (), .sleep 2, .setLevel .off, .timerInterrupt] = some k ∧
    k.after .plain (fun _ _ => true) [.timerInterrupt] = some k' ∧
    k.statusOf ⟨1⟩ = some .blocked ∧ k'.statusOf ⟨1⟩ = some .ready ∧
    ∃ r, OnlyEntitled .timerInterrupt r k k' := by
  have hchecks : (plainKernel.after .plain (fun _ _ => true)
      [.init, .start, .create "worker" 31 (), .sleep 2, .setLevel .off, .timerInterrupt]).any
        (fun k => decide (k.initialized = true ∧ k.statusOf ⟨1⟩ = some .blocked) &&
          (k.after .plain (fun _ _ => true) [.timerInterrupt]).any fun k' =>
            decide (k'.spawns < Word.top ∧ k'.statusOf ⟨1⟩ = some .ready)) = true := by
    decide +kernel
  obtain ⟨k, hk, hchecks⟩ := (Option.any_eq_true _ _).mp hchecks
  simp only [Bool.and_eq_true, decide_eq_true_eq] at hchecks
  obtain ⟨⟨hup, hblocked⟩, hchecks⟩ := hchecks
  obtain ⟨k', hk', hchecks⟩ := (Option.any_eq_true _ _).mp hchecks
  rw [decide_eq_true_eq] at hchecks
  obtain ⟨hspawns, hready⟩ := hchecks
  have hrun : Run .plain anyCall plainKernel _ k := (Run.of_after hk).mono fun _ _ _ => trivial
  obtain ⟨r, hstep⟩ := Kernel.perform_of_after hk'
  exact ⟨k, k', hk, hk', hblocked, hready, r,
    only_entitled_change_status Hooks.queryOnly_plain ofConfig_standard hrun hup hstep hspawns⟩

end RoundRobin
