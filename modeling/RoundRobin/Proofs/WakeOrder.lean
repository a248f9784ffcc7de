import RoundRobin.Proofs.RegistryContents

/-!
# Sleepers wake in order

Of two sleepers the one with the earlier tick, or with the same tick and the older registration, joins
the queue first and gets the processor first. What carries this is the `line` of those who wait to be
dispatched, the queue with the registry behind it: a wake moves the border between the two and nothing
else, and a decision takes the head. So no order within the line is ever turned around.
-/

namespace RoundRobin

variable {C : Client} {hooks : Hooks C}

/-! ## The order in the registry -/

namespace SleepRegistry

variable {l : List Sleeper} {s a b : Sleeper}

theorem sublist_insert (s : Sleeper) (l : List Sleeper) : l.Sublist (insert s l) := by
  induction l with
  | nil => exact List.nil_sublist _
  | cons x rest ih =>
    unfold insert
    split
    · exact ih.cons_cons x
    · exact List.sublist_cons_self s _

/-- An earlier sleeper comes first. -/
theorem Sorted.pair_sublist (h : Sorted l) (ha : a ∈ l) (hb : b ∈ l)
    (hlt : a.wakeTick < b.wakeTick) : [a, b].Sublist l := by
  induction l with
  | nil => cases ha
  | cons x rest ih =>
    have hhead := h.head_le ha
    rcases List.mem_cons.mp hb with hbx | hb'
    · -- the head is no later than any other
      rw [hbx] at hlt
      omega
    · rcases List.mem_cons.mp ha with rfl | ha'
      · exact (List.singleton_sublist.mpr hb').cons_cons a
      · exact (ih h.tail ha' hb').cons x

/-- A new sleeper comes behind those of its tick. -/
theorem Sorted.pair_sublist_insert (h : Sorted l) (ha : a ∈ l) (hle : a.wakeTick ≤ s.wakeTick) :
    [a, s].Sublist (insert s l) := by
  induction l with
  | nil => cases ha
  | cons x rest ih =>
    unfold insert
    split
    · rcases List.mem_cons.mp ha with rfl | ha
      · exact (List.singleton_sublist.mpr (mem_insert.mpr (.inl rfl))).cons_cons a
      · exact (ih h.tail ha).cons x
    · next hlt =>
      have := h.head_le ha
      omega

/-- Two who are both among the chosen ones stand there in the order that they had. -/
theorem pair_sublist_filter {p : Sleeper → Bool} (h : [a, b].Sublist l) (ha : p a = true)
    (hb : p b = true) : [a, b].Sublist (l.filter p) := by
  have hpair : [a, b].filter p = [a, b] := by simp [ha, hb]
  exact hpair ▸ h.filter p

end SleepRegistry

/-! ## The line -/

namespace Tables

variable {β : Type} {t t' : Tables β} {a b id : ThreadId} {way : Way} {d : Dispatch}

/-- Those who wait to be dispatched: the queue, and behind it the sleepers, earliest first. -/
def line (t : Tables β) : List ThreadId := t.ready.ids ++ t.sleepers.sleepers.map (·.thread)

theorem Sound.nodup_line (h : Sound t) : t.line.Nodup := by
  refine List.nodup_append.mpr ⟨h.nodup .ready, h.nodup .sleeping, fun i hi j hj heq => ?_⟩
  -- a thread has one link, and it names one container
  have hready := (h.mem_iff .ready nofun i).mp hi
  have hsleeping := (h.mem_iff .sleeping nofun j).mp hj
  rw [heq, hsleeping] at hready
  cases hready

/-- A tick moves sleepers to the queue, and each keeps its place in the line. -/
theorem Sound.line_of_tick {user asks : Bool} {now timeSlice : Nat} (hsound : Sound t)
    (hord : t.sleepers.Ordered) (h : t.tick user now timeSlice = .ok (asks, t')) :
    t'.line = t.line := by
  obtain ⟨hqueue, hsleepers⟩ := hsound.woken_of_tick hord h
  unfold line
  rw [hqueue, hsleepers, List.append_assoc, SleepRegistry.woken_append]

theorem line_of_unblock (h : t.unblock id = .ok t') : t.line.Sublist t'.line := by
  obtain ⟨more, hmore⟩ := queue_of_unblock h
  unfold line
  rw [sleepers_of_unblock h, hmore]
  exact (List.sublist_append_left _ _).append (.refl _)

theorem sublist_sleepers_of_leave (h : t.leave way = .ok (d, t')) :
    t.sleepers.sleepers.Sublist t'.sleepers.sleepers := by
  rcases sleepers_of_leave h with hsame | ⟨w, _, hinsert⟩
  · simp only [hsame, List.Sublist.refl]
  · rw [hinsert]
    exact SleepRegistry.sublist_insert _ _

/-- Of two in the line the one behind is not chosen, and both keep their order unless the one in front
is chosen. -/
theorem Sound.pair_of_leave (hsound : Sound t) (hpair : [a, b].Sublist t.line)
    (h : t.leave way = .ok (d, t')) :
    d.next ≠ b ∧ (d.next = a ∨ [a, b].Sublist t'.line) := by
  obtain ⟨more, honly, hnext, hqueue⟩ := queue_of_leave h
  have hsleepers := (sublist_sleepers_of_leave h).map (·.thread)
  have hb : b ∈ t.line := hpair.subset (by simp)
  have hnodup := hsound.nodup_line
  cases hids : t.ready.ids with
  | nil =>
    rw [hids, List.nil_append] at hnext hqueue
    unfold line at hb hpair
    rw [hids, List.nil_append] at hb hpair
    refine ⟨fun heq => ?_, .inr ?_⟩
    · -- both sleep, and only the current thread or the idle one can be chosen
      obtain ⟨s, hs, rfl⟩ := List.mem_map.mp hb
      have hasleep := hsound.sleeps hs
      cases more with
      | nil => exact hasleep.notIdle (heq ▸ hnext)
      | cons i rest =>
        rw [List.head?_cons, Option.some_or, Option.some.injEq] at hnext
        have hprevious := honly i List.mem_cons_self
        rw [hnext, heq] at hprevious
        exact hasleep.notCurrent (hprevious ▸ (parting_of_leave h).previous)
    · unfold line
      exact (hpair.trans hsleepers).trans (List.sublist_append_right _ _)
  | cons x rest =>
    rw [hids, List.cons_append, List.head?_cons, Option.some_or, Option.some.injEq] at hnext
    rw [hids, List.cons_append, List.tail_cons] at hqueue
    unfold line at hnodup hpair
    rw [hids, List.cons_append] at hnodup hpair
    obtain ⟨hx, hrest⟩ := List.nodup_cons.mp hnodup
    have hgrows : (rest ++ t.sleepers.sleepers.map (·.thread)).Sublist t'.line := by
      unfold line
      rw [hqueue]
      exact (List.sublist_append_left _ _).append hsleepers
    cases hpair with
    | cons _ hpair =>
      have hbin : b ∈ rest ++ t.sleepers.sleepers.map (·.thread) := hpair.subset (by simp)
      refine ⟨fun heq => hx ?_, .inr (hpair.trans hgrows)⟩
      rw [hnext, heq]
      exact hbin
    | cons_cons _ hpair =>
      -- the one in front is the head
      refine ⟨fun heq => hx ?_, .inl hnext.symm⟩
      rw [hnext, heq]
      exact List.singleton_sublist.mp hpair

end Tables

/-! ## Turns -/

/-- Among decisions, listed from the first to the last, none was for `b` before one was for `a`. -/
def Precedes (a b : ThreadId) (made : List Dispatch) : Prop :=
  ∀ earlier d later, made = earlier ++ d :: later → d.next = b → ∃ d' ∈ earlier, d'.next = a

theorem precedes_nil (a b : ThreadId) : Precedes a b [] := by
  intro earlier d later hsplit
  simp at hsplit

theorem Precedes.snoc {a b : ThreadId} {made : List Dispatch} {d : Dispatch} (h : Precedes a b made)
    (hd : d.next = b → ∃ d' ∈ made, d'.next = a) : Precedes a b (made ++ [d]) := by
  intro earlier e later hsplit he
  rcases List.eq_nil_or_concat later with rfl | ⟨later', f, rfl⟩
  · -- the last decision is the new one
    obtain ⟨rfl, hlast⟩ := List.append_inj' hsplit rfl
    rw [List.cons.injEq] at hlast
    exact hd (hlast.1 ▸ he)
  · rw [List.concat_eq_append, ← List.cons_append, ← List.append_assoc] at hsplit
    obtain ⟨rfl, _⟩ := List.append_inj' hsplit rfl
    exact h earlier e later' rfl he

namespace Core

variable {s s' : Core C} {c : Call C.Body} {a b : ThreadId} {base : List Dispatch}

/-- Since the decisions in `base`, `b` got the processor only after `a`, and so long as `a` did not get
it either, `a` stands in front of `b`. -/
def InTurn (a b : ThreadId) (base : List Dispatch) (s : Core C) : Prop :=
  ∃ made, s.decisions = made.reverse ++ base ∧ Precedes a b made ∧
    ((∃ d ∈ made, d.next = a) ∨ [a, b].Sublist s.tables.line)

theorem InTurn.congr (h : InTurn a b base s) (hdecisions : s'.decisions = s.decisions)
    (hline : s.tables.line.Sublist s'.tables.line) : InTurn a b base s' := by
  obtain ⟨made, hmade, hprecedes, hcase⟩ := h
  exact ⟨made, hdecisions.trans hmade, hprecedes, hcase.imp_right fun hpair => hpair.trans hline⟩

theorem InTurn.left {way : Way} {d : Dispatch} {t : Tables C.Body} (h : InTurn a b base s)
    (hsound : s.tables.Sound) (ht : s.tables.leave way = .ok (d, t)) :
    InTurn a b base (s.left d t) := by
  obtain ⟨made, hmade, hprecedes, hcase⟩ := h
  refine ⟨made ++ [d], ?_, ?_, ?_⟩
  · rw [List.reverse_append]
    exact congrArg (d :: ·) hmade
  · refine hprecedes.snoc fun hnext => ?_
    rcases hcase with hserved | hpair
    · exact hserved
    · exact absurd hnext (hsound.pair_of_leave hpair ht).1
  · rcases hcase with ⟨e, he, hnext⟩ | hpair
    · exact .inl ⟨e, List.mem_append_left _ he, hnext⟩
    · rcases (hsound.pair_of_leave hpair ht).2 with hnext | hpair'
      · exact .inl ⟨d, List.mem_append_right _ (List.mem_singleton.mpr rfl), hnext⟩
      · exact .inr hpair'

/-- The order of `a` and `b` with what it needs. -/
structure Lined (a b : ThreadId) (base : List Dispatch) (s : Core C) : Prop where
  coherent : s.Coherent
  ordered : s.tables.sleepers.Ordered
  turn : s.spawns < Word.top → InTurn a b base s

theorem Lined.left {way : Way} {d : Dispatch} {t : Tables C.Body} (h : Lined a b base s)
    (ht : s.tables.leave way = .ok (d, t)) (hroom : s.spawns < Word.top) :
    InTurn a b base (s.left d t) := by
  have hsound := h.coherent.sound_of_current hroom (Tables.parting_of_leave ht).previous
  exact (h.turn hroom).left hsound ht

/-- Nothing turns the order around. -/
theorem kept_lined (a b : ThreadId) (base : List Dispatch) :
    Kept (Lined (C := C) a b base) where
  later h hroom := ⟨kept_coherent.later h.coherent hroom, h.ordered,
    fun hspawns => (h.turn hspawns).congr rfl (.refl _)⟩
  adopted h hfresh := ⟨kept_coherent.adopted h.coherent hfresh, h.ordered,
    fun hspawns => (h.turn hspawns).congr rfl (.refl _)⟩
  hired {s} _ _ _ _ _ h hup hpool := ⟨kept_coherent.hired h.coherent hup hpool, h.ordered,
    fun hspawns => by
      have hless : s.spawns + 1 < Word.top := hspawns
      exact (h.turn (by omega)).congr rfl (.refl _)⟩
  appointed {s} _ _ _ _ _ h hup hfirst hpool := ⟨kept_coherent.appointed h.coherent hup hfirst hpool,
    h.ordered, fun hspawns => by
      have hless : s.spawns + 1 < Word.top := hspawns
      exact (h.turn (by omega)).congr rfl (.refl _)⟩
  unblocked h ht := ⟨kept_coherent.unblocked h.coherent ht, kept_ordered.unblocked h.ordered ht,
    fun hspawns => (h.turn hspawns).congr rfl (Tables.line_of_unblock ht)⟩
  left h hmay ht := ⟨kept_coherent.left h.coherent hmay ht, kept_ordered.left h.ordered hmay ht,
    h.left ht⟩
  prioritized h hc := ⟨kept_coherent.prioritized h.coherent hc, h.ordered,
    fun hspawns => (h.turn hspawns).congr rfl (.refl _)⟩
  ticked h hup hroom ht := ⟨kept_coherent.ticked h.coherent hup hroom ht,
    kept_ordered.ticked h.ordered hup hroom ht, fun hspawns => by
      have hsound := (h.coherent.recorded hspawns hup).sound
      have hline := hsound.line_of_tick h.ordered ht
      exact (h.turn hspawns).congr rfl (hline ▸ .refl _)⟩
  preempted h ht := ⟨kept_coherent.preempted h.coherent ht, kept_ordered.preempted h.ordered ht,
    fun hspawns => by
      obtain ⟨made, hmade, hprecedes, hcase⟩ := h.left ht hspawns
      exact ⟨made, hmade, hprecedes, hcase⟩⟩

/-- An interrupt of an initialized kernel wakes those whose tick has come. -/
theorem Effect.registry_of_charged (h : Effect s c s') (hc : c.isTimer = true)
    (hup : s.initialized = true) (hord : s.tables.sleepers.Ordered) :
    s'.tables.sleepers.sleepers = (s.tables.sleepers.wake (s.ticks + 1)).2.sleepers := by
  have hticked : ∀ {s₁ : Core C}, Ticked s s₁ →
      s₁.tables.sleepers.sleepers = (s.tables.sleepers.wake (s.ticks + 1)).2.sleepers := by
    intro s₁ ht
    cases ht with
    | early hfresh => rw [hup] at hfresh; cases hfresh
    | full _ ht => exact (Tables.woken_of_tick hord ht).2.1
  cases h with
  | nothing hother => rw [hc] at hother; cases hother
  | leave hother => rw [hc] at hother; cases hother
  | advance => cases hc
  | adopt => cases hc
  | start => cases hc
  | create => cases hc
  | unblock => cases hc
  | prioritize => cases hc
  | timerInterrupt _ _ ht => exact hticked ht
  | tick _ _ ht => exact hticked ht
  | preempt _ _ ht _ hleave =>
    -- who yields does not fall asleep
    rcases Tables.sleepers_of_leave hleave with hsame | ⟨_, hway, _⟩
    · exact (congrArg SleepRegistry.sleepers hsame).trans (hticked ht)
    · cases hway

/-- Without one a thread may fall asleep, and nobody wakes. -/
theorem Effect.registry_of_uncharged (h : Effect s c s')
    (hno : c.isTimer = true → s.initialized = false) :
    s'.tables.sleepers.sleepers = s.tables.sleepers.sleepers ∨
      ∃ x, s'.tables.sleepers.sleepers = SleepRegistry.insert x s.tables.sleepers.sleepers := by
  have hleft : ∀ {t t' : Tables C.Body} {way : Way} {d : Dispatch}, t.leave way = .ok (d, t') →
      t'.sleepers.sleepers = t.sleepers.sleepers ∨
        ∃ x, t'.sleepers.sleepers = SleepRegistry.insert x t.sleepers.sleepers := by
    intro t t' way d hleave
    rcases Tables.sleepers_of_leave hleave with hsame | ⟨w, _, hinsert⟩
    · exact .inl (congrArg SleepRegistry.sleepers hsame)
    · exact .inr ⟨_, congrArg SleepRegistry.sleepers hinsert⟩
  have hticked : ∀ {s₁ : Core C}, s.initialized = false → Ticked s s₁ → s₁ = s.later := by
    intro s₁ hfresh ht
    cases ht with
    | early => rfl
    | full hup => rw [hup] at hfresh; cases hfresh
  cases h with
  | nothing => exact .inl rfl
  | advance => exact .inl rfl
  | adopt => exact .inl rfl
  | start => exact .inl rfl
  | create _ _ _ hunblock =>
    have hsame := Tables.sleepers_of_unblock hunblock
    exact .inl (congrArg SleepRegistry.sleepers hsame)
  | unblock hunblock =>
    have hsame := Tables.sleepers_of_unblock hunblock
    exact .inl (congrArg SleepRegistry.sleepers hsame)
  | leave _ hleave => exact hleft hleave
  | prioritize => exact .inl rfl
  | timerInterrupt _ _ ht => rw [hticked (hno rfl) ht]; exact .inl rfl
  | tick _ _ ht => rw [hticked (hno rfl) ht]; exact .inl rfl
  | preempt _ _ ht _ hleave =>
    rw [hticked (hno rfl) ht] at hleave
    exact hleft hleave

/-- A call changes the registry in one way at most: one more thread falls asleep, or those whose tick
has come are woken. -/
theorem Effect.registry (h : Effect s c s') (hord : s.tables.sleepers.Ordered) :
    s'.tables.sleepers.sleepers = s.tables.sleepers.sleepers ∨
    (∃ x, s'.tables.sleepers.sleepers = SleepRegistry.insert x s.tables.sleepers.sleepers) ∨
    ∃ now, s'.tables.sleepers.sleepers = (s.tables.sleepers.wake now).2.sleepers := by
  by_cases hcharged : c.isTimer = true ∧ s.initialized = true
  · exact .inr (.inr ⟨_, h.registry_of_charged hcharged.1 hcharged.2 hord⟩)
  · rcases h.registry_of_uncharged fun hc => by simpa [hc] using hcharged with hsame | hinsert
    · exact .inl hsame
    · exact .inr (.inl hinsert)

end Core

/-! ## Runs -/

/-- The sleeper is registered when the call is made. -/
def registered (a : Sleeper) (k : Kernel C) (_ : Call C.Body) : Prop :=
  a ∈ k.tables.sleepers.sleepers

instance (a : Sleeper) (k : Kernel C) (c : Call C.Body) : Decidable (registered a k c) :=
  inferInstanceAs (Decidable (a ∈ k.tables.sleepers.sleepers))

variable {allowed : Kernel C → Call C.Body → Prop} {config : Config} {client : C.State}
  {k₀ k k' : Kernel C} {calls since : List (Call C.Body)} {c : Call C.Body} {r : Reply}
  {a b : Sleeper}

/-- Who leaves the registry was woken by a timer interrupt, and put into the queue. -/
theorem Kernel.Reached.woken_of_left (hq : hooks.QueryOnly) (h : k.Reached)
    (hspawns : k.spawns < Word.top) (ha : a ∈ k.tables.sleepers.sleepers)
    (hstep : c.perform hooks k = .ok r k') (hleft : a ∉ k'.tables.sleepers.sleepers) :
    c.isTimer = true ∧ a.wakeTick ≤ k.clock.ticks + 1 ∧ Woken a.thread k k' := by
  have heffect := Call.effect hq hstep
  have hdue : c.isTimer = true ∧ a.wakeTick ≤ k.clock.ticks + 1 := by
    by_cases hcalm : c.isTimer = true → k.clock.ticks + 1 < a.wakeTick
    · exact absurd (heffect.mem_sleepers h.ordered ha hcalm) hleft
    · obtain ⟨hc, hle⟩ := Classical.not_imp.mp hcalm
      exact ⟨hc, Nat.le_of_not_lt hle⟩
  have hsleeps := (h.coherent.recorded hspawns (h.up hspawns ha)).sound.sleeps ha
  exact ⟨hdue.1, hdue.2, h.woken hq hspawns hsleeps hdue.2 hdue.1 hstep⟩

/-- Who was registered earlier under a tick stands first, so long as it is not woken. -/
theorem Run.pair_registered (hq : hooks.QueryOnly) (hrun : Run hooks (registered a) k calls k')
    (h : k.Reached) (htick : a.wakeTick = b.wakeTick) (hout : b ∉ k.tables.sleepers.sleepers)
    (ha : a ∈ k'.tables.sleepers.sleepers) (hb : b ∈ k'.tables.sleepers.sleepers) :
    [a, b].Sublist k'.tables.sleepers.sleepers := by
  induction hrun with
  | nil => exact absurd hb hout
  | @snoc calls c r k₁ k₂ run may step ih =>
    have hord : k₁.tables.sleepers.Ordered := (run.reached hq h).ordered
    have hmay : a ∈ k₁.tables.sleepers.sleepers := may
    rcases (Call.effect hq step).registry hord with hsame | ⟨x, hinsert⟩ | ⟨now, hwake⟩
    · have hsame : k₂.tables.sleepers.sleepers = k₁.tables.sleepers.sleepers := hsame
      rw [hsame] at hb ⊢
      exact ih hmay hb
    · have hinsert : k₂.tables.sleepers.sleepers
          = SleepRegistry.insert x k₁.tables.sleepers.sleepers := hinsert
      rw [hinsert] at hb ⊢
      rcases SleepRegistry.mem_insert.mp hb with rfl | hb
      · exact SleepRegistry.Sorted.pair_sublist_insert hord.sorted hmay (Nat.le_of_eq htick)
      · exact (ih hmay hb).trans (SleepRegistry.sublist_insert x _)
    · have hwake : k₂.tables.sleepers.sleepers = k₁.tables.sleepers.sleepers.filter _ :=
        hwake.trans (SleepRegistry.Sorted.dropWhile_matured hord.sorted now)
      rw [hwake] at ha hb ⊢
      have hb := List.mem_filter.mp hb
      exact SleepRegistry.pair_sublist_filter (ih hmay hb.1) (List.mem_filter.mp ha).2 hb.2

/-- In `k`, where the calls led from `k₀`, `a` is to wake before `b`: its tick is earlier, or it is the
same one and `a` was registered first. That is, there was a state in which `a` was registered and `b`
was not, and `a` is registered since. -/
def WakesFirst (hooks : Hooks C) (a b : Sleeper) (k₀ : Kernel C) (calls : List (Call C.Body))
    (k : Kernel C) : Prop :=
  a.wakeTick < b.wakeTick ∨ a.wakeTick = b.wakeTick ∧ ∃ before after k₁, calls = before ++ after ∧
    Run hooks anyCall k₀ before k₁ ∧ Run hooks (registered a) k₁ after k ∧
    a ∈ k₁.tables.sleepers.sleepers ∧ b ∉ k₁.tables.sleepers.sleepers

theorem WakesFirst.append (h : WakesFirst hooks a b k₀ calls k)
    (hrun : Run hooks (registered a) k since k') : WakesFirst hooks a b k₀ (calls ++ since) k' := by
  rcases h with hlt | ⟨htick, before, after, k₁, rfl, hbefore, hafter, hin, hout⟩
  · exact .inl hlt
  · exact .inr ⟨htick, before, after ++ since, k₁, List.append_assoc _ _ _, hbefore,
      hafter.append hrun, hin, hout⟩

theorem WakesFirst.wakeTick_le (h : WakesFirst hooks a b k₀ calls k) : a.wakeTick ≤ b.wakeTick :=
  h.elim Nat.le_of_lt fun htie => Nat.le_of_eq htie.1

/-- Who is to wake first stands first in the registry. -/
theorem WakesFirst.pair_sublist (hq : hooks.QueryOnly) (h : WakesFirst hooks a b k₀ calls k)
    (h₀ : k₀.Reached) (hk : k.Reached) (ha : a ∈ k.tables.sleepers.sleepers)
    (hb : b ∈ k.tables.sleepers.sleepers) : [a, b].Sublist k.tables.sleepers.sleepers := by
  rcases h with hlt | ⟨htick, before, after, k₁, _, hbefore, hafter, _, hout⟩
  · exact SleepRegistry.Sorted.pair_sublist hk.ordered.sorted ha hb hlt
  · exact hafter.pair_registered hq (hbefore.reached hq h₀) htick hout ha hb

/-- Of two sleepers in `k`, `a` is put into the queue before `b` and gets the processor before `b`,
whatever is called. -/
structure KeepsOrder (hooks : Hooks C) (a b : Sleeper) (k : Kernel C) : Prop where
  /-- The call that takes `b` out of the registry puts it into the queue. Before that call another one
  did the same with `a`, or the same interrupt put `a` into the queue in front of `b`. -/
  queued : ∀ {since : List (Call C.Body)} {k₁ k₂ : Kernel C} {c : Call C.Body} {r : Reply},
    Run hooks (registered b) k since k₁ → b ∈ k₁.tables.sleepers.sleepers →
    c.perform hooks k₁ = .ok r k₂ → b ∉ k₂.tables.sleepers.sleepers → k₁.spawns < Word.top →
    Woken b.thread k₁ k₂ ∧
      ((∃ earlier c' later k₃ r' k₄, since = earlier ++ c' :: later ∧
          Run hooks (registered a) k earlier k₃ ∧ c'.perform hooks k₃ = .ok r' k₄ ∧
          Woken a.thread k₃ k₄ ∧ Run hooks (registered b) k₄ later k₁) ∨
        ∃ woken, [a.thread, b.thread].Sublist woken ∧ Core.Appended woken k₁.core k₂.core)
  /-- No decision since `k` was for `b` before one was for `a`. -/
  dispatched : ∀ {since : List (Call C.Body)} {k' : Kernel C}, Run hooks anyCall k since k' →
    k'.spawns < Word.top →
    ∃ made, k'.decisions = made.reverse ++ k.decisions ∧ Precedes a.thread b.thread made

/-- An interrupt that wakes both puts them into the queue in their order. -/
theorem Kernel.Reached.appended (hq : hooks.QueryOnly) (h : k.Reached)
    (hspawns : k.spawns < Word.top) (hpair : [a, b].Sublist k.tables.sleepers.sleepers)
    (hle : a.wakeTick ≤ b.wakeTick) (hc : c.isTimer = true) (hdue : b.wakeTick ≤ k.clock.ticks + 1)
    (hstep : c.perform hooks k = .ok r k') :
    ∃ woken, [a.thread, b.thread].Sublist woken ∧ Core.Appended woken k.core k'.core := by
  have hup := h.up hspawns (hpair.subset List.mem_cons_self)
  have hsound := (h.coherent.recorded hspawns hup).sound
  obtain ⟨_, happended⟩ := (Call.effect hq hstep).appended hc hup hsound h.ordered
  refine ⟨_, ?_, happended⟩
  have hboth := SleepRegistry.pair_sublist_filter (p := fun s => s.wakeTick ≤ k.clock.ticks + 1) hpair
    (by simpa using Nat.le_trans hle hdue) (by simpa using hdue)
  rw [← SleepRegistry.Sorted.takeWhile_matured h.ordered.sorted] at hboth
  exact hboth.map Sleeper.thread

/-- Sleepers are queued and dispatched in the order of their ticks, and those of one tick in the order
in which they were registered, whatever happens in between. -/
theorem sleepers_wake_in_order (hq : hooks.QueryOnly)
    (h₀ : Kernel.ofConfig config client = .ok k₀) (hrun : Run hooks anyCall k₀ calls k)
    (ha : a ∈ k.tables.sleepers.sleepers) (hb : b ∈ k.tables.sleepers.sleepers)
    (hfirst : WakesFirst hooks a b k₀ calls k) : KeepsOrder hooks a b k := by
  have hreached₀ := Kernel.reached_of_ofConfig h₀
  have hreached := hrun.reached hq hreached₀
  constructor
  · intro since k₁ k₂ c r hsince hb₁ hstep hleft hspawns
    have hreached₁ := hsince.reached hq hreached
    obtain ⟨hc, hdue, hwoken⟩ := hreached₁.woken_of_left hq hspawns hb₁ hstep hleft
    refine ⟨hwoken, ?_⟩
    rcases hsince.holds_or_ends (P := fun m => a ∈ m.tables.sleepers.sleepers) ha with
      ⟨ha₁, hheld⟩ | ⟨earlier, c', later, k₃, r', k₄, rfl, hearlier, ha₃, hstep₃, hgone, hlater⟩
    · -- `a` slept all the time, so the order of the registry has not changed
      have hfirst₁ := hfirst.append hheld
      have hpair := hfirst₁.pair_sublist hq hreached₀ hreached₁ ha₁ hb₁
      exact .inr (hreached₁.appended hq hspawns hpair hfirst.wakeTick_le hc hdue hstep)
    · have hreached₃ := hearlier.reached hq hreached
      have hspawns₃ : k₃.spawns < Word.top :=
        Nat.lt_of_le_of_lt (Nat.le_trans (Kernel.spawns_le_of_perform hq hstep₃)
          (hlater.spawns_le hq)) hspawns
      obtain ⟨_, _, hwoken₃⟩ := hreached₃.woken_of_left hq hspawns₃ ha₃ hstep₃ hgone
      exact .inl ⟨earlier, c', later, k₃, r', k₄, rfl, hearlier, hstep₃, hwoken₃, hlater⟩
  · intro since k' hsince hspawns
    have hpair := hfirst.pair_sublist hq hreached₀ hreached ha hb
    have hline : [a.thread, b.thread].Sublist k.tables.line :=
      (hpair.map Sleeper.thread).trans (List.sublist_append_right _ _)
    have hlined : Core.Lined a.thread b.thread k.decisions k.core :=
      ⟨hreached.coherent, hreached.ordered,
        fun _ => ⟨[], rfl, precedes_nil _ _, .inr hline⟩⟩
    obtain ⟨made, hmade, hprecedes, _⟩ := (hsince.keeps hq (Core.kept_lined _ _ _) hlined).turn hspawns
    exact ⟨made, hmade, hprecedes⟩

/-- Two workers fall asleep until the same tick, one after the other, so they keep their order. The
third interrupt wakes the second of them. -/
theorem sleepers_wake_in_order_tie : ∃ k₀ k k₁ k₂ : Kernel plainClient,
    plainKernel.after .plain (fun _ _ => true) [.init, .start, .create "first" 31 (),
      .create "second" 31 (), .yieldNow, .sleep 3] = some k₀ ∧
    k₀.after .plain (fun k c => decide (registered ⟨⟨3⟩, 3⟩ k c)) [.sleep 3]
      = some k ∧
    KeepsOrder .plain ⟨⟨3⟩, 3⟩ ⟨⟨4⟩, 3⟩ k ∧
    k.after .plain (fun k c => decide (registered ⟨⟨4⟩, 3⟩ k c))
      [.setLevel .off, .onTimerInterrupt, .onTimerInterrupt] = some k₁ ∧
    k₁.after .plain (fun _ _ => true) [.onTimerInterrupt] = some k₂ ∧ Woken ⟨4⟩ k₁ k₂ := by
  have hchecks : (plainKernel.after .plain (fun _ _ => true) [.init, .start, .create "first" 31 (),
      .create "second" 31 (), .yieldNow, .sleep 3]).any (fun k₀ =>
        decide (k₀.tables.sleepers.sleepers = [⟨⟨3⟩, 3⟩]) &&
        (k₀.after .plain (fun k c => decide (registered ⟨⟨3⟩, 3⟩ k c)) [.sleep 3]).any
          (fun k => decide (k.tables.sleepers.sleepers = [⟨⟨3⟩, 3⟩, ⟨⟨4⟩, 3⟩]) &&
            (k.after .plain (fun k c => decide (registered ⟨⟨4⟩, 3⟩ k c))
              [.setLevel .off, .onTimerInterrupt, .onTimerInterrupt]).any (fun k₁ =>
                decide (⟨⟨4⟩, 3⟩ ∈ k₁.tables.sleepers.sleepers) &&
                decide (k₁.spawns < Word.top) &&
                (k₁.after .plain (fun _ _ => true) [.onTimerInterrupt]).any (fun k₂ =>
                  decide (⟨⟨4⟩, 3⟩ ∉ k₂.tables.sleepers.sleepers))))) = true := by
    decide +kernel
  obtain ⟨k₀, hk₀, hchecks⟩ := (Option.any_eq_true _ _).mp hchecks
  rw [Bool.and_eq_true, decide_eq_true_eq] at hchecks
  obtain ⟨hsleepers₀, hchecks⟩ := hchecks
  obtain ⟨k, hk, hchecks⟩ := (Option.any_eq_true _ _).mp hchecks
  rw [Bool.and_eq_true, decide_eq_true_eq] at hchecks
  obtain ⟨hsleepers, hchecks⟩ := hchecks
  obtain ⟨k₁, hk₁, hchecks⟩ := (Option.any_eq_true _ _).mp hchecks
  simp only [Bool.and_eq_true, decide_eq_true_eq] at hchecks
  obtain ⟨⟨hb₁, hspawns⟩, hchecks⟩ := hchecks
  obtain ⟨k₂, hk₂, hleft⟩ := (Option.any_eq_true _ _).mp hchecks
  rw [decide_eq_true_eq] at hleft
  have hbefore : Run .plain anyCall plainKernel _ k₀ := (Run.of_after hk₀).mono fun _ _ _ => trivial
  have hafter : Run .plain (registered ⟨⟨3⟩, 3⟩) k₀ [.sleep 3] k :=
    (Run.of_after hk).mono fun _ _ hmay => of_decide_eq_true hmay
  have hsince : Run .plain (registered ⟨⟨4⟩, 3⟩) k _ k₁ :=
    (Run.of_after hk₁).mono fun _ _ hmay => of_decide_eq_true hmay
  have hfirst : WakesFirst .plain ⟨⟨3⟩, 3⟩ ⟨⟨4⟩, 3⟩ plainKernel _ k :=
    .inr ⟨rfl, _, _, k₀, rfl, hbefore, hafter, by simp [hsleepers₀], by simp [hsleepers₀]⟩
  have hkeeps := sleepers_wake_in_order Hooks.queryOnly_plain ofConfig_standard
    (hbefore.append (hafter.mono fun _ _ _ => trivial)) (by simp [hsleepers]) (by simp [hsleepers])
    hfirst
  obtain ⟨r, hlast⟩ := Kernel.perform_of_after hk₂
  exact ⟨k₀, k, k₁, k₂, hk₀, hk, hkeeps, hk₁, hk₂, (hkeeps.queued hsince hb₁ hlast hleft hspawns).1⟩

end RoundRobin
