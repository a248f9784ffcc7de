import RoundRobin.Proofs.Sleeping

/-!
# What the sleep registry holds

The registry against a plain list of those who wait, in the order in which they were registered: after
any changes it holds the same sleepers, sorted by wake tick, and its cached tick is the earliest one.
So a wake hands out those whose tick has come and keeps the others, and a look at the cached tick never
makes a difference to what an interrupt does.
-/

namespace RoundRobin

namespace SleepRegistry

variable {r : SleepRegistry} {s : Sleeper} {l : List Sleeper} {id : ThreadId} {w now : Nat}

/-! ## Changes -/

/-- One change of the registry. -/
inductive Change where
  | register (id : ThreadId) (wakeTick : Nat)
  | wake (now : Nat)
deriving DecidableEq

def Change.apply : Change → SleepRegistry → Except Fault SleepRegistry
  | register id wakeTick, r => r.register id wakeTick
  | wake now, r => .ok (r.wake now).2

/-- The registry after changes, listed from the first to the last. -/
def applyAll : List Change → SleepRegistry → Except Fault SleepRegistry
  | [], r => .ok r
  | c :: rest, r => do applyAll rest (← c.apply r)

/-- Those who wait after a change, in the order in which they were registered. -/
def Change.waiting (l : List Sleeper) : Change → List Sleeper
  | register id wakeTick => l ++ [⟨id, wakeTick⟩]
  | wake now => l.filter fun s => now < s.wakeTick

/-- Those who wait after changes. -/
def waitingAfter (changes : List Change) (l : List Sleeper) : List Sleeper :=
  changes.foldl Change.waiting l

/-- Whether a change may be made while `l` wait: nobody is registered twice, and wake ticks are words.
The ticks of wakes may come in any order. -/
def Change.Proper (l : List Sleeper) : Change → Prop
  | register id wakeTick => id ∉ l.map (·.thread) ∧ wakeTick ≤ Word.top
  | wake _ => True

/-- Whether changes may be made, one after another. -/
def Proper : List Sleeper → List Change → Prop
  | _, [] => True
  | l, c :: rest => c.Proper l ∧ Proper (c.waiting l) rest

/-! ## Sorted lists -/

/-- The earliest sleeper comes first. -/
abbrev Sorted (l : List Sleeper) : Prop := l.Pairwise fun a b => a.wakeTick ≤ b.wakeTick

theorem Sorted.head_le {a b : Sleeper} {rest : List Sleeper} (h : Sorted (a :: rest))
    (hb : b ∈ a :: rest) : a.wakeTick ≤ b.wakeTick := by
  rcases List.mem_cons.mp hb with rfl | hb
  · exact Nat.le_refl _
  · exact (List.pairwise_cons.mp h).1 b hb

/-- A new sleeper comes after all others of its tick. -/
theorem Sorted.filter_insert (h : Sorted l) (w : Nat) :
    (insert s l).filter (·.wakeTick == w)
      = l.filter (·.wakeTick == w) ++ [s].filter (·.wakeTick == w) := by
  induction l with
  | nil => rfl
  | cons a rest ih =>
    unfold insert
    split
    · rw [List.filter_cons, List.filter_cons, ih h.tail]
      split <;> rfl
    · next hlt =>
      rw [← List.singleton_append, List.filter_append]
      by_cases hw : s.wakeTick = w
      · -- from the place of the new sleeper on all ticks are later than its own
        have hnone : (a :: rest).filter (·.wakeTick == w) = [] := by
          rw [List.filter_eq_nil_iff]
          intro b hb
          have := h.head_le hb
          simp only [beq_iff_eq]
          omega
        rw [hnone, List.append_nil, List.nil_append]
      · have hnone : [s].filter (·.wakeTick == w) = [] := by simpa using hw
        rw [hnone, List.append_nil, List.nil_append]

/-- Of sorted sleepers those whose tick has come are the first ones. -/
theorem Sorted.takeWhile_matured (h : Sorted l) (now : Nat) :
    l.takeWhile (matured now) = l.filter fun s => s.wakeTick ≤ now := by
  induction l with
  | nil => rfl
  | cons a rest ih =>
    by_cases hle : a.wakeTick ≤ now
    · rw [List.takeWhile_cons_of_pos (by simpa [matured] using hle), ih h.tail,
        List.filter_cons_of_pos (by simpa using hle)]
    · rw [List.takeWhile_cons_of_neg (by simpa [matured] using hle), eq_comm,
        List.filter_eq_nil_iff]
      intro b hb
      have := h.head_le hb
      simp only [decide_eq_true_eq]
      omega

/-- And the others are the last ones. -/
theorem Sorted.dropWhile_matured (h : Sorted l) (now : Nat) :
    l.dropWhile (matured now) = l.filter fun s => now < s.wakeTick := by
  induction l with
  | nil => rfl
  | cons a rest ih =>
    by_cases hle : a.wakeTick ≤ now
    · rw [List.dropWhile_cons_of_pos (by simpa [matured] using hle), ih h.tail,
        List.filter_cons_of_neg (by simpa using hle)]
    · rw [List.dropWhile_cons_of_neg (by simpa [matured] using hle), eq_comm, List.filter_eq_self]
      intro b hb
      have := h.head_le hb
      simp only [decide_eq_true_eq]
      omega

/-! ## The cached tick -/

/-- The cached tick is the earliest one, so long as wake ticks are words. -/
def Exact (r : SleepRegistry) : Prop :=
  (∀ s ∈ r.sleepers, s.wakeTick ≤ Word.top) → r.nextWake = earliest r.sleepers

theorem earliest_insert (hw : s.wakeTick ≤ Word.top) :
    earliest (insert s l) = min (earliest l) s.wakeTick := by
  cases l with
  | nil => exact (Nat.min_eq_right hw).symm
  | cons a rest =>
    unfold insert
    split
    · next hle => exact (Nat.min_eq_left hle).symm
    · next hlt => exact (Nat.min_eq_right (Nat.le_of_not_le hlt)).symm

theorem Exact.insert (h : r.Exact) (s : Sleeper) :
    Exact { sleepers := SleepRegistry.insert s r.sleepers, nextWake := min r.nextWake s.wakeTick } := by
  intro hwords
  show min r.nextWake s.wakeTick = earliest (SleepRegistry.insert s r.sleepers)
  rw [earliest_insert (hwords s (mem_insert.mpr (.inl rfl))),
    h fun a ha => hwords a (mem_insert.mpr (.inr ha))]

theorem exact_wake (r : SleepRegistry) (now : Nat) : (r.wake now).2.Exact := fun _ => rfl

theorem exact_empty : empty.Exact := fun _ => rfl

/-- Of sorted sleepers the first one has the earliest tick, in whatever order they are listed. -/
theorem Sorted.earliest_eq_min {m : List Sleeper} (h : Sorted l) (hperm : l.Perm m) :
    earliest l = (m.map (·.wakeTick)).min?.getD Word.top := by
  cases l with
  | nil =>
    rw [hperm.symm.eq_nil]
    rfl
  | cons a rest =>
    have hmin : (m.map (·.wakeTick)).min? = some a.wakeTick := by
      rw [List.min?_eq_some_iff]
      refine ⟨List.mem_map_of_mem (hperm.mem_iff.mp List.mem_cons_self), fun w hw => ?_⟩
      obtain ⟨b, hb, rfl⟩ := List.mem_map.mp hw
      exact h.head_le (hperm.mem_iff.mpr hb)
    rw [hmin]
    rfl

/-- With an exact cached tick a wake that is not due would change nothing. -/
theorem wake_of_not_due (hexact : r.nextWake = earliest r.sleepers) (hdue : r.due now = false) :
    r.wake now = ([], r) := by
  have hlt : now < r.nextWake := by simpa [due] using hdue
  obtain ⟨sleepers, nextWake⟩ := r
  dsimp only at hexact hlt
  subst hexact
  cases sleepers with
  | nil => rfl
  | cons a rest =>
    have hfirst : ¬ matured now a = true := by simpa [matured, earliest] using hlt
    unfold wake
    dsimp only
    rw [List.takeWhile_cons_of_neg hfirst, List.dropWhile_cons_of_neg hfirst]
    rfl

/-! ## The registry and the list -/

/-- The registry holds those who wait: `l`, in the order in which they were registered. -/
structure Holds (l : List Sleeper) (r : SleepRegistry) : Prop where
  distinct : (l.map (·.thread)).Nodup
  words : ∀ s ∈ l, s.wakeTick ≤ Word.top
  perm : r.sleepers.Perm l
  sorted : Sorted r.sleepers
  /-- Those of one tick stand in the order in which they were registered. -/
  ties : ∀ w, r.sleepers.filter (·.wakeTick == w) = l.filter (·.wakeTick == w)
  exact : r.Exact

theorem holds_empty : Holds [] empty :=
  ⟨List.nodup_nil, nofun, .refl _, List.Pairwise.nil, fun _ => rfl, exact_empty⟩

theorem Holds.register (h : Holds l r) (hout : id ∉ l.map (·.thread)) (hw : w ≤ Word.top) :
    ∃ r', r.register id w = .ok r' ∧ Holds (l ++ [⟨id, w⟩]) r' := by
  have hcontains : r.contains id = false := by
    rw [Bool.eq_false_iff]
    exact fun hin => hout ((h.perm.map (·.thread)).mem_iff.mp (contains_iff.mp hin))
  refine ⟨_, register_eq_ok hcontains w, ?_, fun s hs => ?_, ?_, sorted_insert h.sorted,
    fun w' => ?_, h.exact.insert ⟨id, w⟩⟩
  · rw [List.map_append, List.nodup_append]
    refine ⟨h.distinct, List.pairwise_singleton _ _, fun a ha b hb heq => ?_⟩
    rw [List.map_singleton, List.mem_singleton] at hb
    rw [heq, hb] at ha
    exact hout ha
  · rcases List.mem_append.mp hs with hs | hs
    · exact h.words s hs
    · rw [List.mem_singleton.mp hs]
      exact hw
  · exact (perm_insert ⟨id, w⟩ r.sleepers).trans
      ((h.perm.cons _).trans (List.perm_append_singleton _ l).symm)
  · rw [h.sorted.filter_insert, h.ties, List.filter_append]

theorem Holds.wake (h : Holds l r) (now : Nat) :
    Holds (l.filter fun s => now < s.wakeTick) (r.wake now).2 := by
  have hrest : (r.wake now).2.sleepers = r.sleepers.filter fun s => now < s.wakeTick :=
    h.sorted.dropWhile_matured now
  refine ⟨?_, fun s hs => h.words s (List.mem_filter.mp hs).1, ?_, ?_, fun w => ?_,
    exact_wake r now⟩
  · exact h.distinct.sublist (List.filter_sublist.map _)
  · rw [hrest]
    exact h.perm.filter _
  · rw [hrest]
    exact h.sorted.filter _
  · -- the others of a tick stay in their order
    have hcomm : ∀ m : List Sleeper,
        (m.filter fun s => now < s.wakeTick).filter (·.wakeTick == w)
          = (m.filter (·.wakeTick == w)).filter fun s => now < s.wakeTick := by
      intro m
      simp only [List.filter_filter, Bool.and_comm]
    rw [hrest, hcomm, h.ties, ← hcomm]

theorem Holds.change {c : Change} (h : Holds l r) (hc : c.Proper l) :
    ∃ r', c.apply r = .ok r' ∧ Holds (c.waiting l) r' := by
  cases c with
  | register id w => exact h.register hc.1 hc.2
  | wake now => exact ⟨_, rfl, h.wake now⟩

theorem Holds.changes {changes : List Change} (h : Holds l r) (hproper : Proper l changes) :
    ∃ r', applyAll changes r = .ok r' ∧ Holds (waitingAfter changes l) r' := by
  induction changes generalizing l r with
  | nil => exact ⟨r, rfl, h⟩
  | cons c rest ih =>
    obtain ⟨hc, hrest⟩ := hproper
    obtain ⟨u, hu, hnext⟩ := h.change hc
    obtain ⟨r', hr', hlast⟩ := ih hnext hrest
    refine ⟨r', ?_, hlast⟩
    unfold applyAll
    rw [hu]
    exact hr'

/-- What the list of those who wait says of the registry: its contents, and the answer to everything
that may be asked of it. -/
structure Refines (l : List Sleeper) (r : SleepRegistry) : Prop where
  perm : r.sleepers.Perm l
  sorted : Sorted r.sleepers
  /-- Those of one tick stand in the order in which they were registered. -/
  ties : ∀ w, r.sleepers.filter (·.wakeTick == w) = l.filter (·.wakeTick == w)
  nextWake : r.nextWake = (l.map (·.wakeTick)).min?.getD Word.top
  /-- A wake hands out those whose tick has come, earliest first, -/
  woken : ∀ now, (r.wake now).1 = (r.sleepers.filter fun s => s.wakeTick ≤ now).map (·.thread)
  once : ∀ now, (r.wake now).1.Nodup
  count : ∀ now, (r.wake now).1.length = l.countP fun s => s.wakeTick ≤ now
  /-- and keeps the others as they are. -/
  kept : ∀ now, (r.wake now).2.sleepers = r.sleepers.filter fun s => now < s.wakeTick
  due : ∀ now, now ≤ Word.top →
    (r.due now = true ↔ (∃ s ∈ l, s.wakeTick ≤ now) ∨ l = [] ∧ now = Word.top)

theorem Holds.exact_sleepers (h : Holds l r) : r.nextWake = earliest r.sleepers :=
  h.exact fun s hs => h.words s (h.perm.mem_iff.mp hs)

/-- The registry is due when the tick of somebody has come, and an empty one at the last tick. -/
theorem Holds.due_iff (h : Holds l r) (hnow : now ≤ Word.top) :
    r.due now = true ↔ (∃ s ∈ l, s.wakeTick ≤ now) ∨ l = [] ∧ now = Word.top := by
  have hmem : ∀ s, s ∈ l ↔ s ∈ r.sleepers := fun s => h.perm.symm.mem_iff
  have hnil : l = [] ↔ r.sleepers = [] :=
    ⟨fun e => (e ▸ h.perm).eq_nil, fun e => (e ▸ h.perm.symm).eq_nil⟩
  have hsorted := h.sorted
  rw [due, decide_eq_true_eq, h.exact_sleepers, hnil]
  simp only [hmem]
  cases hs : r.sleepers with
  | nil =>
    -- the cached tick is the last one, which may come as any other
    show Word.top ≤ now ↔ _
    constructor
    · exact fun hle => .inr ⟨rfl, Nat.le_antisymm hnow hle⟩
    · rintro (⟨_, hin, _⟩ | ⟨_, hlast⟩)
      · cases hin
      · exact Nat.le_of_eq hlast.symm
  | cons a rest =>
    rw [hs] at hsorted
    show a.wakeTick ≤ now ↔ _
    constructor
    · exact fun hle => .inl ⟨a, List.mem_cons_self, hle⟩
    · rintro (⟨b, hb, hle⟩ | ⟨hnone, _⟩)
      · exact Nat.le_trans (hsorted.head_le hb) hle
      · cases hnone

theorem Holds.refines (h : Holds l r) : Refines l r where
  perm := h.perm
  sorted := h.sorted
  ties := h.ties
  nextWake := by
    rw [h.exact_sleepers, h.sorted.earliest_eq_min h.perm]
  woken now := by rw [SleepRegistry.wake, h.sorted.takeWhile_matured]
  once now := by
    have hnodup : (r.sleepers.map (·.thread)).Nodup := (h.perm.map _).nodup_iff.mpr h.distinct
    exact hnodup.sublist ((List.takeWhile_sublist _).map _)
  count now := by
    rw [SleepRegistry.wake, List.length_map, h.sorted.takeWhile_matured, ← List.countP_eq_length_filter]
    exact h.perm.countP_eq _
  kept now := h.sorted.dropWhile_matured now
  due _ hnow := h.due_iff hnow

end SleepRegistry

/-! ## The look at the cached tick -/

namespace Tables

variable {β : Type} {t t' : Tables β} {now : Nat}

/-- Readies the sleepers whose tick has come, without a look at the cached tick. -/
def wakeAll (now : Nat) (t : Tables β) : Except Fault (Nat × Tables β) := do
  let (woken, sleepers) := t.sleepers.wake now
  return (woken.length, ← makeAllReady woken { t with sleepers })

/-- The look at the cached tick makes no difference, so long as it is exact. -/
theorem wakeDue_eq_wakeAll (h : t.sleepers.nextWake = SleepRegistry.earliest t.sleepers.sleepers)
    (now : Nat) : t.wakeDue now = t.wakeAll now := by
  unfold wakeDue wakeAll
  cases hdue : t.sleepers.due now with
  | true => rfl
  | false =>
    rw [SleepRegistry.wake_of_not_due h hdue]
    rfl

theorem exact_of_leave {way : Way} {d : Dispatch} (hexact : t.sleepers.Exact)
    (h : t.leave way = .ok (d, t')) : t'.sleepers.Exact := by
  rcases sleepers_of_leave h with hsame | ⟨w, _, hinsert⟩
  · rw [hsame]; exact hexact
  · rw [hinsert]; exact hexact.insert ⟨d.previous, w⟩

theorem exact_of_tick {user asks : Bool} {timeSlice : Nat} (hexact : t.sleepers.Exact)
    (h : t.tick user now timeSlice = .ok (asks, t')) : t'.sleepers.Exact := by
  obtain ⟨woken, u, c, stats, hw, _, _, _, _, rfl⟩ := tick_eq_ok_iff.mp h
  show u.sleepers.Exact
  rcases wakeDue_eq_ok_iff.mp hw with ⟨_, _, hm⟩ | ⟨_, _, rfl⟩
  · have hsleepers : u.sleepers = (t.sleepers.wake now).2 := by
      rw [(readied_of_makeAllReady hm).rest]
    rw [hsleepers]
    exact SleepRegistry.exact_wake _ now
  · exact hexact

end Tables

variable {C : Client} {hooks : Hooks C}

/-- The cached tick is exact in every state. -/
theorem Core.kept_exact : Kept (fun s : Core C => s.tables.sleepers.Exact) where
  later h _ := h
  adopted h _ := h
  hired h _ _ := h
  appointed h _ _ _ := h
  unblocked h ht := by
    show SleepRegistry.Exact _
    rw [Tables.sleepers_of_unblock ht]
    exact h
  left h _ ht := Tables.exact_of_leave h ht
  prioritized h _ := h
  ticked h _ _ ht := Tables.exact_of_tick h ht
  preempted h ht := Tables.exact_of_leave h ht

theorem Run.exact {allowed : Kernel C → Call C.Body → Prop} {config : Config} {client : C.State}
    {k₀ k : Kernel C} {calls : List (Call C.Body)} (hq : hooks.QueryOnly)
    (h₀ : Kernel.ofConfig config client = .ok k₀) (hrun : Run hooks allowed k₀ calls k) :
    k.tables.sleepers.Exact := by
  have hnew : k₀.tables.sleepers.Exact := by
    obtain ⟨_, _, rfl⟩ := Kernel.eq_of_ofConfig h₀
    exact SleepRegistry.exact_empty
  exact hrun.keeps hq Core.kept_exact hnew

/-! ## The registry and a naive collection -/

/-- Whatever is registered and whenever is woken, the registry says what the plain list of those who
wait says, and it makes no difference whether an interrupt looks at the cached tick before it wakes:
neither with a registry that was made by such changes, nor in any state of a run. -/
theorem registry_refines_list {changes : List SleepRegistry.Change}
    (hproper : SleepRegistry.Proper [] changes) (hq : hooks.QueryOnly) :
    (∃ r, SleepRegistry.applyAll changes .empty = .ok r ∧
      SleepRegistry.Refines (SleepRegistry.waitingAfter changes []) r ∧
      ∀ t : Tables C.Body, t.sleepers = r → ∀ now, t.wakeDue now = t.wakeAll now) ∧
    ∀ (config : Config) (client : C.State) (k₀ k : Kernel C) (calls : List (Call C.Body)),
      Kernel.ofConfig config client = .ok k₀ → Run hooks anyCall k₀ calls k →
      (∀ s ∈ k.tables.sleepers.sleepers, s.wakeTick ≤ Word.top) →
      ∀ now, k.tables.wakeDue now = k.tables.wakeAll now := by
  constructor
  · obtain ⟨r, hr, hholds⟩ := SleepRegistry.holds_empty.changes hproper
    refine ⟨r, hr, hholds.refines, fun t ht now => Tables.wakeDue_eq_wakeAll ?_ now⟩
    rw [ht]
    exact hholds.exact_sleepers
  · intro config client k₀ k calls h₀ hrun hwords now
    exact Tables.wakeDue_eq_wakeAll (hrun.exact hq h₀ hwords) now

/-- Six threads are registered, one of them for the last tick there is, and wakes come out of order;
and the thread that booted falls asleep. -/
theorem registry_refines_list_six : ∃ r : SleepRegistry,
    SleepRegistry.applyAll [.register ⟨3⟩ 30, .register ⟨4⟩ 10, .register ⟨5⟩ 20, .register ⟨6⟩ 10,
      .wake 15, .wake 5, .register ⟨4⟩ 20, .register ⟨7⟩ Word.top] .empty = .ok r ∧
    SleepRegistry.Refines [⟨⟨3⟩, 30⟩, ⟨⟨5⟩, 20⟩, ⟨⟨4⟩, 20⟩, ⟨⟨7⟩, Word.top⟩] r ∧
    (r.wake 25).1 = [⟨5⟩, ⟨4⟩] ∧
    ∃ k : Kernel plainClient, plainKernel.after .plain (fun _ _ => true) [.init, .start, .sleep 2]
      = some k ∧ k.tables.sleepers.sleepers = [⟨⟨1⟩, 2⟩] ∧
      k.tables.wakeDue 1 = k.tables.wakeAll 1 := by
  have hproper : SleepRegistry.Proper [] [.register ⟨3⟩ 30, .register ⟨4⟩ 10, .register ⟨5⟩ 20,
      .register ⟨6⟩ 10, .wake 15, .wake 5, .register ⟨4⟩ 20, .register ⟨7⟩ Word.top] := by
    refine ⟨?_, ?_, ?_, ?_, trivial, trivial, ?_, ?_, trivial⟩ <;> exact ⟨by decide, by decide⟩
  have hchecks : (plainKernel.after .plain (fun _ _ => true) [.init, .start, .sleep 2]).any
      (fun k => decide (k.tables.sleepers.sleepers = [⟨⟨1⟩, 2⟩])) = true := by decide +kernel
  obtain ⟨k, hk, hsleepers⟩ := (Option.any_eq_true _ _).mp hchecks
  rw [decide_eq_true_eq] at hsleepers
  obtain ⟨⟨r, hr, hrefines, _⟩, hruns⟩ := registry_refines_list hproper Hooks.queryOnly_plain
  have hwords : ∀ s ∈ k.tables.sleepers.sleepers, s.wakeTick ≤ Word.top := by
    rw [hsleepers]
    decide
  refine ⟨r, hr, hrefines, ?_, k, hk, hsleepers, ?_⟩
  · cases hr
    decide
  · exact hruns _ _ _ _ _ ofConfig_standard ((Run.of_after hk).mono fun _ _ _ => trivial) hwords 1

end RoundRobin
