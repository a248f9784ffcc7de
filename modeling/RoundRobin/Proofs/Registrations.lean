import RoundRobin.Proofs.WakeOrder

/-!
# Sleepers in the order in which they fell asleep

What a run registered and what it woke, call by call, gives a plain list of those who still sleep, the
oldest registration first. In every state of a run the registry is that list, sorted by wake tick and
without turning around any two of one tick.
-/

namespace RoundRobin

namespace SleepRegistry

variable {l m : List Sleeper} {s : Sleeper}

/-! ## A stable sort -/

theorem wakeTick_trans (a b c : Sleeper) (hab : decide (a.wakeTick ≤ b.wakeTick) = true)
    (hbc : decide (b.wakeTick ≤ c.wakeTick) = true) : decide (a.wakeTick ≤ c.wakeTick) = true := by
  simp only [decide_eq_true_eq] at *
  omega

theorem wakeTick_total (a b : Sleeper) :
    (decide (a.wakeTick ≤ b.wakeTick) || decide (b.wakeTick ≤ a.wakeTick)) = true := by
  simp only [Bool.or_eq_true, decide_eq_true_eq]
  omega

/-- Sleepers by wake tick, and those of one tick in the order of the list. -/
def byTick (l : List Sleeper) : List Sleeper := l.mergeSort fun a b => a.wakeTick ≤ b.wakeTick

theorem perm_byTick (l : List Sleeper) : (byTick l).Perm l := List.mergeSort_perm l _

theorem sorted_byTick (l : List Sleeper) : Sorted (byTick l) := by
  have hsorted := List.pairwise_mergeSort wakeTick_trans wakeTick_total l
  exact hsorted.imp fun h => of_decide_eq_true h

/-- Those of one tick stand in the order of the list. -/
theorem filter_byTick (l : List Sleeper) (w : Nat) :
    (byTick l).filter (·.wakeTick == w) = l.filter (·.wakeTick == w) := by
  have htie : (l.filter (·.wakeTick == w)).Pairwise
      fun a b => decide (a.wakeTick ≤ b.wakeTick) = true := by
    refine List.pairwise_of_forall_mem_list fun a ha b hb => ?_
    have ha := (List.mem_filter.mp ha).2
    have hb := (List.mem_filter.mp hb).2
    rw [beq_iff_eq] at ha hb
    simp [ha, hb]
  have hsub : (l.filter (·.wakeTick == w)).Sublist (byTick l) :=
    List.sublist_mergeSort wakeTick_trans wakeTick_total htie List.filter_sublist
  have hfilter := hsub.filter (·.wakeTick == w)
  rw [List.filter_filter] at hfilter
  simp only [Bool.and_self] at hfilter
  exact (hfilter.eq_of_length (((perm_byTick l).filter _).length_eq.symm)).symm

theorem mem_of_ties (h : ∀ w, l.filter (·.wakeTick == w) = m.filter (·.wakeTick == w))
    (hs : s ∈ l) : s ∈ m := by
  have hin : s ∈ l.filter (·.wakeTick == s.wakeTick) := List.mem_filter.mpr ⟨hs, beq_self_eq_true _⟩
  rw [h] at hin
  exact (List.mem_filter.mp hin).1

/-- Sorted sleepers are told apart by those of each tick. -/
theorem Sorted.eq_of_ties (hl : Sorted l) (hm : Sorted m)
    (h : ∀ w, l.filter (·.wakeTick == w) = m.filter (·.wakeTick == w)) : l = m := by
  induction l generalizing m with
  | nil =>
    cases m with
    | nil => rfl
    | cons b rest => simpa using h b.wakeTick
  | cons a rest ih =>
    cases m with
    | nil => simpa using h a.wakeTick
    | cons b rest' =>
      -- the heads have the earliest tick of the same sleepers
      have hba := hm.head_le (mem_of_ties h List.mem_cons_self)
      have hab := hl.head_le (mem_of_ties (fun w => (h w).symm) List.mem_cons_self)
      have htick : b.wakeTick = a.wakeTick := Nat.le_antisymm hba hab
      have hheads := h a.wakeTick
      rw [List.filter_cons_of_pos (by simp), List.filter_cons_of_pos (by simp [htick]),
        List.cons.injEq] at hheads
      obtain ⟨rfl, _⟩ := hheads
      congr 1
      refine ih hl.tail hm.tail fun w => ?_
      have hw := h w
      rw [List.filter_cons, List.filter_cons] at hw
      split at hw
      · exact (List.cons.inj hw).2
      · exact hw

/-- Who is registered last comes behind all of its tick. -/
theorem insert_byTick (s : Sleeper) (l : List Sleeper) : insert s (byTick l) = byTick (l ++ [s]) := by
  refine Sorted.eq_of_ties (sorted_insert (sorted_byTick l)) (sorted_byTick _) fun w => ?_
  rw [(sorted_byTick l).filter_insert, filter_byTick, filter_byTick, List.filter_append]

/-- The one that was not registered before is told from the others. -/
theorem filter_insert_not_mem (hs : s ∉ l) : (insert s l).filter (· ∉ l) = [s] := by
  have hperm := (perm_insert s l).filter (· ∉ l)
  have hnone : l.filter (· ∉ l) = [] := by simp
  rw [List.filter_cons_of_pos (by simpa using hs), hnone] at hperm
  exact List.perm_singleton.mp hperm

/-- Sorting some of them sorts them as they are among all. -/
theorem byTick_filter (p : Sleeper → Bool) (l : List Sleeper) :
    byTick (l.filter p) = (byTick l).filter p := by
  refine Sorted.eq_of_ties (sorted_byTick _) ((sorted_byTick l).filter _) fun w => ?_
  rw [filter_byTick, List.filter_filter, List.filter_filter]
  simp only [Bool.and_comm _ (p _)]
  rw [← List.filter_filter, ← List.filter_filter, filter_byTick]

theorem byTick_nil : byTick [] = [] := List.mergeSort_nil

theorem waitingAfter_append (changes changes' : List Change) (l : List Sleeper) :
    waitingAfter (changes ++ changes') l = waitingAfter changes' (waitingAfter changes l) :=
  List.foldl_append

end SleepRegistry

/-! ## What a run registered -/

variable {C : Client} {hooks : Hooks C}

/-- What a call did to the registry: an interrupt of an initialized kernel wakes, and whom another call
leaves there in addition it has registered. -/
def Stage.changes (s : Stage C) : List SleepRegistry.Change :=
  if s.before.charges s.call then [.wake (s.before.clock.ticks + 1)]
  else
    (s.after.tables.sleepers.sleepers.filter (· ∉ s.before.tables.sleepers.sleepers)).map fun x =>
      .register x.thread x.wakeTick

/-- Who sleeps after a run, the oldest registration first. -/
def Kernel.asleepAfter (hooks : Hooks C) (calls : List (Call C.Body)) (k : Kernel C) : List Sleeper :=
  SleepRegistry.waitingAfter ((k.stages hooks calls).flatMap (·.changes)) []

variable {allowed : Kernel C → Call C.Body → Prop} {config : Config} {client : C.State}
  {k₀ k k₁ k₂ : Kernel C} {calls : List (Call C.Body)} {c : Call C.Body} {r : Reply}

theorem Run.asleepAfter_snoc (hrun : Run hooks allowed k calls k₁)
    (hstep : c.perform hooks k₁ = .ok r k₂) : k.asleepAfter hooks (calls ++ [c])
      = SleepRegistry.waitingAfter (Stage.changes ⟨k₁, c, k₂⟩) (k.asleepAfter hooks calls) := by
  unfold Kernel.asleepAfter
  rw [hrun.stages_snoc hstep, List.flatMap_append, SleepRegistry.waitingAfter_append,
    List.flatMap_singleton]

/-- One call more changes the list as it changes the registry. -/
theorem Stage.byTick_waitingAfter {l : List Sleeper} (hq : hooks.QueryOnly) (h : k₁.Reached)
    (h₂ : k₂.Reached) (hspawns : k₂.spawns < Word.top) (hstep : c.perform hooks k₁ = .ok r k₂)
    (hl : k₁.tables.sleepers.sleepers = SleepRegistry.byTick l) :
    k₂.tables.sleepers.sleepers
      = SleepRegistry.byTick (SleepRegistry.waitingAfter (Stage.changes ⟨k₁, c, k₂⟩) l) := by
  have heffect := Call.effect hq hstep
  unfold Stage.changes
  dsimp only
  by_cases hcharged : k₁.charges c = true
  · obtain ⟨hc, hup⟩ := (Bool.and_eq_true _ _).mp hcharged
    have hwake : k₂.tables.sleepers.sleepers
        = (k₁.tables.sleepers.wake (k₁.clock.ticks + 1)).2.sleepers :=
      heffect.registry_of_charged hc hup h.ordered
    rw [if_pos hcharged, hwake, SleepRegistry.sleepers_wake,
      SleepRegistry.Sorted.dropWhile_matured h.ordered.sorted, hl]
    exact (SleepRegistry.byTick_filter _ l).symm
  · rw [if_neg hcharged]
    have hno : c.isTimer = true → k₁.initialized = false := by
      intro hc
      simpa [Kernel.charges, hc] using hcharged
    rcases heffect.registry_of_uncharged hno with hsame | ⟨x, hinsert⟩
    · have hsame : k₂.tables.sleepers.sleepers = k₁.tables.sleepers.sleepers := hsame
      have hnone : k₁.tables.sleepers.sleepers.filter (· ∉ k₁.tables.sleepers.sleepers) = [] := by
        simp
      rw [hsame, hnone]
      exact hl
    · have hinsert : k₂.tables.sleepers.sleepers
          = SleepRegistry.insert x k₁.tables.sleepers.sleepers := hinsert
      -- nobody is registered twice, so the new one was not there before
      have hnew : x ∉ k₁.tables.sleepers.sleepers := by
        have hx : x ∈ k₂.tables.sleepers.sleepers :=
          hinsert ▸ SleepRegistry.mem_insert.mpr (.inl rfl)
        have hsound := (h₂.coherent.recorded hspawns (h₂.up hspawns hx)).sound
        have hnodup : k₂.tables.sleepers.sleepers.Nodup :=
          List.Pairwise.of_map (·.thread) (fun _ _ hne heq => hne (congrArg _ heq))
            (hsound.nodup .sleeping)
        rw [hinsert, (SleepRegistry.perm_insert x _).nodup_iff] at hnodup
        exact (List.nodup_cons.mp hnodup).1
      rw [hinsert, SleepRegistry.filter_insert_not_mem hnew, hl]
      exact SleepRegistry.insert_byTick x l

/-- In every state of a run the registry is the list of those who sleep, sorted by wake tick. -/
theorem Run.sleepers_eq (hq : hooks.QueryOnly) (h₀ : Kernel.ofConfig config client = .ok k₀)
    (hrun : Run hooks allowed k₀ calls k) (hspawns : k.spawns < Word.top) :
    k.tables.sleepers.sleepers = SleepRegistry.byTick (k₀.asleepAfter hooks calls) := by
  induction hrun with
  | nil =>
    obtain ⟨_, _, rfl⟩ := Kernel.eq_of_ofConfig h₀
    exact SleepRegistry.byTick_nil.symm
  | @snoc calls c r k₁ k₂ run may step ih =>
    have hreached := run.reached hq (Kernel.reached_of_ofConfig h₀)
    have hreached₂ := (run.snoc may step).reached hq (Kernel.reached_of_ofConfig h₀)
    have hspawns₁ := Nat.lt_of_le_of_lt (Kernel.spawns_le_of_perform hq step) hspawns
    rw [run.asleepAfter_snoc step]
    exact Stage.byTick_waitingAfter hq hreached hreached₂ hspawns step (ih hspawns₁)

end RoundRobin
