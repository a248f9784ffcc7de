import RoundRobin.Proofs.Kernel.Act
import RoundRobin.Proofs.Kernel.Run

/-!
# Interrupt levels along an operation

An operation is `Disciplined` when the level at which it comes back can be told from the level at which
it was called and from its result, and when the kernel that it leaves is related to the kernel that it
found. A `Discipline` says how, for operations that come back and for operations that stop. There is a
rule for each primitive and one for putting operations together, so the discipline of an operation is
read off its text, once for all relations that the primitives respect.
-/

namespace RoundRobin

variable {C : Client} {α β : Type}

/-! ## Kinds of events -/

namespace Event

variable {ν : Type} {e : Event ν}

/-- Interrupts are masked, if the event is one at which they have to be. -/
def Masked : Event ν → Prop
  | updated l => l = .off
  | dispatched _ _ l => l = .off
  | switched l => l = .off
  | _ => True

/-- Whether the tables were changed. -/
def isUpdate : Event ν → Bool
  | updated _ => true
  | _ => false

/-- Whether it is a decision, a call of the process layer or a switch. -/
def isTraced : Event ν → Bool
  | hook _ _ _ => true
  | dispatched _ _ _ => true
  | switched _ => true
  | _ => false

theorem not_isTraced_of_isReport (h : e.isReport = true) : e.isTraced = false := by
  unfold isReport at h
  split at h
  · rfl
  · rfl
  · rfl
  · cases h

theorem masked_of_isReport (h : e.isReport = true) : e.Masked := by
  unfold isReport at h
  split at h
  · trivial
  · trivial
  · trivial
  · cases h

end Event

/-! ## What an operation adds -/

/-- From `k` to `k'` events of a kind were noted, and the tables were not changed without a note. A
process layer stays installed. -/
structure Kernel.Adds (kind : Event C.Note → Prop) (k k' : Kernel C) : Prop where
  events : ∃ new, k'.history = new ++ k.history ∧ (∀ e ∈ new, kind e) ∧
    ((∀ e ∈ new, e.isUpdate = false) → k'.tables = k.tables)
  hooked : k.hooked = true → k'.hooked = true

namespace Kernel

variable {kind : Event C.Note → Prop} {k k' k₁ : Kernel C}

theorem Adds.refl (k : Kernel C) : k.Adds kind k :=
  ⟨⟨[], rfl, nofun, fun _ => rfl⟩, fun h => h⟩

theorem Adds.trans (h : k.Adds kind k₁) (h' : k₁.Adds kind k') : k.Adds kind k' := by
  obtain ⟨new, hnew, hkind, htables⟩ := h.events
  obtain ⟨new', hnew', hkind', htables'⟩ := h'.events
  refine ⟨⟨new' ++ new, ?_, fun e he => ?_, fun hnone => ?_⟩, fun hk => h'.hooked (h.hooked hk)⟩
  · rw [hnew', hnew, List.append_assoc]
  · rcases List.mem_append.mp he with hlate | hearly
    · exact hkind' e hlate
    · exact hkind e hearly
  · rw [htables' fun e he => hnone e (List.mem_append_left _ he),
      htables fun e he => hnone e (List.mem_append_right _ he)]

/-- Nothing was noted, and the tables are what they were. -/
theorem adds_of_eq (hhistory : k'.history = k.history) (htables : k'.tables = k.tables)
    (hhooked : k.hooked = true → k'.hooked = true) : k.Adds kind k' :=
  ⟨⟨[], hhistory, nofun, fun _ => htables⟩, hhooked⟩

/-- Reports were made, and what the client keeps for itself is another. -/
theorem adds_reports {reports : List (Event C.Note)} (hreports : ∀ e ∈ reports, e.isReport = true)
    (client : C.State) (cpu : FlagCpu) (k : Kernel C) :
    k.Adds Event.Masked { k with history := reports ++ k.history, client, cpu } :=
  ⟨⟨reports, rfl, fun e he => Event.masked_of_isReport (hreports e he), fun _ => rfl⟩, fun h => h⟩

theorem adds_record {e : Event C.Note} (hkind : kind e) (k : Kernel C) :
    k.Adds kind { k with history := e :: k.history } :=
  ⟨⟨[e], rfl, fun _ he => List.mem_singleton.mp he ▸ hkind, fun _ => rfl⟩, fun h => h⟩

end Kernel

/-! ## Disciplines -/

/-- How the kernel that an operation leaves is related to the kernel that it found. -/
structure Discipline (C : Client) where
  /-- If the operation comes back. -/
  returned : Kernel C → Kernel C → Prop
  /-- If it stops. -/
  stopped : Kernel C → Kernel C → Prop
  trans : ∀ {k k₁ k' : Kernel C}, returned k k₁ → returned k₁ k' → returned k k'
  /-- An operation may stop at once, -/
  stay : ∀ k : Kernel C, stopped k k
  /-- or stop later. -/
  later : ∀ {k k₁ k' : Kernel C}, returned k k₁ → stopped k₁ k' → stopped k k'
  /-- Nothing was noted, the tables are what they were, and a process layer stays installed. -/
  still : ∀ {k k' : Kernel C}, k'.history = k.history → k'.tables = k.tables →
    (k.hooked = true → k'.hooked = true) → returned k k'
  logged : ∀ (m : LogMessage) (k : Kernel C), returned k { k with history := .log m :: k.history }
  /-- The tables were changed with interrupts masked. -/
  updated : ∀ (t : Tables C.Body) (k : Kernel C),
    returned k { k with tables := t, history := .updated .off :: k.history }

namespace Discipline

variable {D : Discipline C}

theorem refl (D : Discipline C) (k : Kernel C) : D.returned k k := D.still rfl rfl fun h => h

/-- The same, for operations that come back alone. -/
def returning (D : Discipline C) : Discipline C :=
  { D with
    stopped := fun _ _ => True
    stay := fun _ => trivial
    later := fun _ _ => trivial }

/-- A discipline for operations that make decisions, too. -/
structure Schedules (D : Discipline C) : Prop where
  spun : ∀ (loops : Nat) (k : Kernel C),
    D.returned k { k with history := .spun loops :: k.history }
  dispatched : ∀ (d : Dispatch) (k : Kernel C),
    D.returned k { k with history := .dispatched d.previous d.next .off :: k.history }
  switched : ∀ k : Kernel C, D.returned k { k with history := .switched .off :: k.history }

theorem Schedules.returning (h : D.Schedules) : D.returning.Schedules := ⟨h.1, h.2, h.3⟩

/-- Only events of one kind are added. -/
def adding (kind : Event C.Note → Prop) (hlog : ∀ m, kind (.log m)) (hupdated : kind (.updated .off)) :
    Discipline C where
  returned k k' := k.Adds kind k'
  stopped k k' := k.Adds kind k'
  trans h h' := h.trans h'
  stay k := .refl k
  later h h' := h.trans h'
  still := Kernel.adds_of_eq
  logged m k := Kernel.adds_record (hlog m) k
  updated t k := by
    refine ⟨⟨[.updated .off], rfl, fun e he => List.mem_singleton.mp he ▸ hupdated, fun hnone => ?_⟩,
      fun h => h⟩
    cases hnone _ List.mem_cons_self

/-- Interrupts are masked whenever they have to be. -/
def masked (C : Client) : Discipline C := adding Event.Masked (fun _ => trivial) rfl

theorem schedules_masked : (masked C).Schedules := by
  have hrecord {e : Event C.Note} (he : e.Masked) (k : Kernel C) :
      (masked C).returned k { k with history := e :: k.history } := Kernel.adds_record he k
  exact ⟨fun n => hrecord (e := .spun n) trivial,
    fun d => hrecord (e := .dispatched d.previous d.next .off) rfl, hrecord (e := .switched .off) rfl⟩

/-- No trace is left. -/
def untraced (C : Client) : Discipline C :=
  adding (fun e => e.isTraced = false) (fun _ => rfl) rfl

end Discipline

/-! ## Disciplined operations -/

namespace Act

variable {D : Discipline C} {l l' : Level} {act : Act C α} {f : α → Act C β} {m : α → Level}
  {post : β → Level}

/-- Called at level `l` the operation comes back at the level that `post` gives for its result, and it
leaves a kernel as a discipline wants it, whether it comes back or stops. -/
structure Disciplined (D : Discipline C) (l : Level) (act : Act C α) (post : α → Level) : Prop where
  returns : ∀ {k : Kernel C} {a : α} {k' : Kernel C}, Maskable.level k.cpu = l → act k = .ok a k' →
    Maskable.level k'.cpu = post a ∧ D.returned k k'
  stops : ∀ {k : Kernel C} {e : Fault} {k' : Kernel C}, Maskable.level k.cpu = l →
    act k = .error e k' → D.stopped k k'

/-- One operation after another. -/
theorem Disciplined.bind (hact : act.Disciplined D l m) (hf : ∀ a, (f a).Disciplined D (m a) post) :
    (act >>= f).Disciplined D l post where
  returns {k b k'} hl h := by
    rw [bind_eq_ok_iff] at h
    obtain ⟨a, k₁, hfirst, hrest⟩ := h
    obtain ⟨hmid, hreturned⟩ := hact.returns hl hfirst
    obtain ⟨hpost, hreturned'⟩ := (hf a).returns hmid hrest
    exact ⟨hpost, D.trans hreturned hreturned'⟩
  stops {k e k'} hl h := by
    rcases bind_eq_error_iff.mp h with hfirst | ⟨a, k₁, hfirst, hrest⟩
    · exact hact.stops hl hfirst
    · obtain ⟨hmid, hreturned⟩ := hact.returns hl hfirst
      exact D.later hreturned ((hf a).stops hmid hrest)

/-- What only looks keeps every level. -/
theorem disciplined_of_final (h : ∀ k, act.final k = k) : act.Disciplined D l fun _ => l where
  returns {k _ k'} hl hact := by
    obtain rfl : k' = k := (final_of_ok hact).symm.trans (h k)
    exact ⟨hl, D.refl k'⟩
  stops {k _ k'} _ hact := by
    obtain rfl : k' = k := (final_of_error hact).symm.trans (h k)
    exact D.stay k'

/-- What comes back from everywhere cannot stop. -/
theorem disciplined_of_returns (hends : ∀ k, ∃ a k', act k = .ok a k')
    (h : ∀ k a k', Maskable.level k.cpu = l → act k = .ok a k' →
      Maskable.level k'.cpu = m a ∧ D.returned k k') : act.Disciplined D l m where
  returns hl hact := h _ _ _ hl hact
  stops {k _ _} _ hact := by
    obtain ⟨a, k', hok⟩ := hends k
    rw [hok] at hact
    cases hact

theorem disciplined_pure {b : β} (h : post b = l) : (pure b : Act C β).Disciplined D l post :=
  disciplined_of_returns (fun k => ⟨b, k, rfl⟩) fun k a k' hl hpure => by
    obtain ⟨rfl, rfl⟩ := pure_eq_ok_iff.mp hpure
    exact ⟨hl.trans h.symm, D.refl _⟩

theorem disciplined_get : (get : Act C (Kernel C)).Disciplined D l fun _ => l :=
  disciplined_of_final fun _ => rfl

theorem disciplined_orFault (r : Except Fault α) : (orFault r : Act C α).Disciplined D l fun _ => l :=
  disciplined_of_final fun _ => by cases r <;> rfl

theorem disciplined_inspect (g : Tables C.Body → Except Fault α) :
    (inspect g).Disciplined D l fun _ => l :=
  disciplined_get.bind fun _ => disciplined_orFault _

theorem disciplined_requireThreadContext (e : Fault) :
    (requireThreadContext e : Act C Unit).Disciplined D l fun _ => l :=
  disciplined_of_final (final_requireThreadContext e)

theorem disciplined_modify {g : Kernel C → Kernel C}
    (hg : ∀ k, Maskable.level k.cpu = l → Maskable.level (g k).cpu = l' ∧ D.returned k (g k)) :
    (modify g : Act C Unit).Disciplined D l fun _ => l' :=
  disciplined_of_returns (fun k => ⟨(), g k, rfl⟩) fun k u k' hl h => by
    rw [modify_eq_ok_iff.mp h]
    exact hg k hl

/-- A change of what is neither history nor tables, and no matter of the processor. -/
theorem disciplined_modify_still {g : Kernel C → Kernel C}
    (hg : ∀ k, (g k).cpu = k.cpu ∧ (g k).history = k.history ∧ (g k).tables = k.tables ∧
      (k.hooked = true → (g k).hooked = true)) :
    (modify g : Act C Unit).Disciplined D l fun _ => l :=
  disciplined_modify fun k hl => by
    obtain ⟨hcpu, hhistory, htables, hhooked⟩ := hg k
    exact ⟨by rw [hcpu]; exact hl, D.still hhistory htables hhooked⟩

theorem disciplined_record {e : Event C.Note}
    (he : ∀ k : Kernel C, D.returned k { k with history := e :: k.history }) :
    (record e).Disciplined D l fun _ => l :=
  disciplined_modify fun k hl => ⟨hl, he k⟩

theorem disciplined_log (m : LogMessage) : (log m : Act C Unit).Disciplined D l fun _ => l :=
  disciplined_record (D.logged m)

theorem disciplined_setLevel (l' : Level) : (setLevel l' : Act C Unit).Disciplined D l fun _ => l' :=
  disciplined_modify fun k _ =>
    ⟨FlagCpu.level_setLevel l' k.cpu, D.still rfl rfl fun h => h⟩

/-- The level that is found is the one at which the operation was called. -/
theorem disciplined_level_bind {f : Level → Act C β} (hf : (f l).Disciplined D l post) :
    (level >>= f).Disciplined D l post where
  returns hl h := by
    rw [level_bind, hl] at h
    exact hf.returns hl h
  stops hl h := by
    rw [level_bind, hl] at h
    exact hf.stops hl h

/-- What comes after a check starts where the check started, and knows that it was passed. -/
theorem disciplined_check_bind {check : Act C Unit} {f : Unit → Act C β}
    (hfinal : ∀ k, check.final k = k)
    (hf : ∀ {k : Kernel C}, Maskable.level k.cpu = l → check k = .ok () k →
      (f ()).Disciplined D l post) : (check >>= f).Disciplined D l post where
  returns {k _ _} hl h := by
    obtain ⟨_, k₁, hcheck, hrest⟩ := bind_eq_ok_iff.mp h
    obtain rfl : k₁ = k := (final_of_ok hcheck).symm.trans (hfinal k)
    exact (hf hl hcheck).returns hl hrest
  stops {k _ _} hl h := by
    rcases bind_eq_error_iff.mp h with hcheck | ⟨_, k₁, hcheck, hrest⟩
    · rw [← final_of_error hcheck, hfinal]
      exact D.stay k
    · obtain rfl : k₁ = k := (final_of_ok hcheck).symm.trans (hfinal k)
      exact (hf hl hcheck).stops hl hrest

theorem disciplined_requireMasked_bind {e : Fault} {f : Unit → Act C β}
    (hf : l = .off → (f ()).Disciplined D l post) : (requireMasked e >>= f).Disciplined D l post :=
  disciplined_check_bind (final_requireMasked e) fun hl h =>
    hf (hl.symm.trans (requireMasked_eq_ok_iff.mp h).1)

theorem disciplined_requireUnmasked_bind {e : Fault} {f : Unit → Act C β}
    (hf : l = .on → (f ()).Disciplined D l post) :
    (requireUnmasked e >>= f).Disciplined D l post :=
  disciplined_check_bind (final_requireUnmasked e) fun hl h =>
    hf (hl.symm.trans (requireUnmasked_eq_ok_iff.mp h).1)

/-- A masked operation sets the level back, whatever it is. -/
theorem disciplined_masked (h : act.Disciplined D .off m) : (masked act).Disciplined D l fun _ => l :=
  disciplined_level_bind <| (disciplined_setLevel .off).bind fun _ =>
    h.bind fun _ => (disciplined_setLevel l).bind fun _ => disciplined_pure rfl

/-- A critical section is open with interrupts masked, and one that fails has changed nothing. -/
theorem disciplined_update (g : Tables C.Body → Except Fault (α × Tables C.Body)) :
    (update g).Disciplined D .off fun _ => .off where
  returns {k _ _} hl h := by
    obtain ⟨t, _, rfl⟩ := update_eq_ok_iff.mp h
    exact ⟨hl, hl.symm ▸ D.updated t k⟩
  stops {k _ _} _ h := by
    cases hg : g k.tables with
    | ok r => rw [update_of_ok hg] at h; cases h
    | error e =>
      rw [update_of_error hg] at h
      cases h
      exact D.stay k

theorem disciplined_change (g : Tables C.Body → Except Fault (Tables C.Body)) :
    (change g).Disciplined D .off fun _ => .off :=
  disciplined_update _

/-- A switch that fails has not been made. -/
theorem disciplined_switchContext (hD : D.Schedules) :
    (switchContext : Act C Unit).Disciplined D .off fun _ => .off where
  returns {k _ _} hl h := by
    obtain ⟨_, _, rfl⟩ := switchContext_eq_ok_iff.mp h
    have hcounted : D.returned k { k with cpu := { k.cpu with switches := k.cpu.switches + 1 } } :=
      D.still rfl rfl fun h => h
    exact ⟨hl, D.trans hcounted (hD.switched _)⟩
  stops {k _ _} _ h := by
    unfold switchContext at h
    split at h
    · cases h
    · cases h
      exact D.stay k

/-- What only asks keeps the level, and may report. -/
theorem adds_of_onlyAsks {k k' : Kernel C} {a : α} (hask : act.OnlyAsks) (h : act k = .ok a k') :
    k'.cpu = k.cpu ∧ k.Adds Event.Masked k' := by
  obtain ⟨reports, client, hreports, rfl⟩ := hask k a k' h
  exact ⟨rfl, Kernel.adds_reports hreports client k.cpu k⟩

end Act

/-! ## Operations that take no part in scheduling -/

namespace Kernel

open Act

variable {D : Discipline C} {l : Level}

/-- A critical section with interrupts masked for its length. -/
theorem disciplined_section (g : Tables C.Body → Except Fault (Tables C.Body)) :
    (masked (change g)).Disciplined D l fun _ => l :=
  disciplined_masked (disciplined_change g)

theorem disciplined_unblock (id : ThreadId) :
    (unblock id : Act C Unit).Disciplined D l fun _ => l :=
  disciplined_section _

theorem disciplined_takePage :
    (takePage : Act C (Option Page)).Disciplined D l fun _ => l := by
  refine disciplined_masked (m := fun _ => .off) (disciplined_get.bind fun k => ?_)
  split
  · exact disciplined_pure rfl
  · exact (disciplined_change _).bind fun _ => disciplined_pure rfl

theorem disciplined_takeId : (takeId : Act C ThreadId).Disciplined D l fun _ => l := by
  refine disciplined_of_returns (fun k => ⟨k.nextId, _, rfl⟩) fun k id k' hl h => ?_
  cases h
  exact ⟨hl, D.still rfl rfl fun h => h⟩

theorem disciplined_spawn (name : String) (priority : Nat) (entry : Entry C.Body) :
    (spawn name priority entry).Disciplined D l fun _ => l :=
  disciplined_get.bind fun _ => by
    split
    · refine disciplined_takePage.bind fun page => ?_
      split
      · exact disciplined_pure rfl
      · exact disciplined_takeId.bind fun _ =>
          (disciplined_section _).bind fun _ => disciplined_pure rfl
    · exact disciplined_pure rfl

theorem disciplined_create (name : String) (priority : Nat) (body : C.Body) :
    (create name priority body).Disciplined D l fun _ => l := by
  unfold create
  split
  · exact disciplined_pure rfl
  · refine (disciplined_spawn _ _ _).bind fun r => ?_
    split
    · exact disciplined_pure rfl
    · exact (disciplined_unblock _).bind fun _ =>
        (disciplined_log _).bind fun _ => disciplined_pure rfl

theorem disciplined_init :
    (init : Act C (Except BringUpError Unit)).Disciplined D l fun _ => l := by
  refine disciplined_requireMasked_bind fun hoff => disciplined_get.bind fun _ => ?_
  subst hoff
  split
  · exact disciplined_pure rfl
  · refine Disciplined.bind (disciplined_modify_still fun _ => ⟨rfl, rfl, rfl, fun h => h⟩) fun _ => ?_
    exact disciplined_takeId.bind fun _ =>
      (disciplined_change _).bind fun _ =>
        disciplined_get.bind fun _ => (disciplined_log _).bind fun _ => disciplined_pure rfl

theorem disciplined_setStarted (started : Bool) :
    (setStarted started : Act C Unit).Disciplined D l fun _ => l :=
  disciplined_modify_still fun _ => ⟨rfl, rfl, rfl, fun h => h⟩

/-- A start that succeeds enables interrupts, and one that fails leaves them as they are. -/
def levelAfterStart (l : Level) : Except Error Unit → Level
  | .ok () => .on
  | .error _ => l

theorem disciplined_start :
    (start : Act C (Except Error Unit)).Disciplined D l (levelAfterStart l) := by
  refine disciplined_get.bind fun _ => ?_
  split
  · exact disciplined_pure rfl
  · split
    · exact disciplined_pure rfl
    · refine (disciplined_setStarted true).bind fun _ => (disciplined_spawn _ _ _).bind fun r => ?_
      split
      · exact (disciplined_setStarted false).bind fun _ => disciplined_pure rfl
      · exact (disciplined_section _).bind fun _ => (disciplined_log _).bind fun _ =>
          (disciplined_setLevel .on).bind fun _ => disciplined_pure rfl

theorem disciplined_advanceClock : (advanceClock : Act C Nat).Disciplined D l fun _ => l :=
  disciplined_get.bind fun _ => (disciplined_orFault _).bind fun _ =>
    Disciplined.bind (disciplined_modify_still fun _ => ⟨rfl, rfl, rfl, fun h => h⟩) fun _ =>
      disciplined_pure rfl

end Kernel

/-- A process layer with which decisions are made under a discipline: a kernel that calls one of its
hooks gets the level back. -/
structure Hooks.Disciplined (D : Discipline C) (hooks : Hooks C) : Prop where
  schedules : D.Schedules
  activate : ∀ (id : ThreadId) (l : Level), (hooks.callActivate id).Disciplined D l fun _ => l
  exit : ∀ (id : ThreadId) (l : Level), (hooks.callExit id).Disciplined D l fun _ => l
  isUser : ∀ (id : ThreadId) (l : Level), (hooks.callIsUser id).Disciplined D l fun _ => l

/-! ## Scheduling -/

namespace Kernel

open Act

variable {D : Discipline C} {hooks : Hooks C} {l : Level}

theorem disciplined_giveUpCpu (hh : hooks.Disciplined D) (status : Status) :
    (giveUpCpu hooks status).Disciplined D l fun _ => l :=
  disciplined_requireMasked_bind fun hoff => by
    subst hoff
    refine Disciplined.bind (disciplined_update _) fun d => disciplined_level_bind ?_
    refine (disciplined_record (hh.schedules.dispatched d)).bind fun _ => ?_
    refine (hh.activate d.next .off).bind fun _ => ?_
    split
    · exact disciplined_switchContext hh.schedules
    · exact disciplined_pure rfl

theorem disciplined_block (hh : hooks.Disciplined D) :
    (block hooks).Disciplined D l fun _ => l :=
  (disciplined_requireThreadContext _).bind fun _ =>
    disciplined_requireMasked_bind fun _ => disciplined_giveUpCpu hh _

/-- A thread is marked and gives up the processor under one mask. -/
theorem disciplined_leave (hh : hooks.Disciplined D)
    (g : Tables C.Body → Except Fault (Tables C.Body)) (status : Status) :
    (masked (do change g; giveUpCpu hooks status)).Disciplined D l fun _ => l :=
  disciplined_masked <| (disciplined_change g).bind fun _ =>
    disciplined_giveUpCpu hh status

theorem disciplined_yieldNow (hh : hooks.Disciplined D) :
    (yieldNow hooks).Disciplined D l fun _ => l :=
  (disciplined_requireThreadContext _).bind fun _ => disciplined_leave hh _ _

theorem disciplined_sleepUntil (hh : hooks.Disciplined D) (wakeTick : Nat) :
    (sleepUntil hooks wakeTick).Disciplined D l fun _ => l :=
  (disciplined_requireThreadContext _).bind fun _ => disciplined_leave hh _ _

/-- An exit leaves interrupts masked for the thread that comes next. -/
theorem disciplined_exit (hh : hooks.Disciplined D) :
    (exit hooks).Disciplined D l fun _ => .off :=
  (disciplined_requireThreadContext _).bind fun _ => (disciplined_inspect _).bind fun id =>
    (disciplined_log _).bind fun _ =>
      (hh.exit id l).bind fun _ =>
        (disciplined_setLevel .off).bind fun _ => disciplined_giveUpCpu hh _

theorem disciplined_sleep (hh : hooks.Disciplined D) (ticks : Nat) :
    (sleep hooks ticks).Disciplined D l fun _ => l :=
  disciplined_get.bind fun _ =>
    disciplined_requireUnmasked_bind fun _ => disciplined_sleepUntil hh _

theorem disciplined_realTimeSleep (hh : hooks.Disciplined D) (num denom : Nat) :
    (realTimeSleep hooks num denom).Disciplined D l fun _ => l :=
  disciplined_get.bind fun _ => (disciplined_orFault _).bind fun _ =>
    disciplined_requireUnmasked_bind fun _ => by
      split
      · exact disciplined_sleep hh _
      · exact (disciplined_orFault _).bind fun loops =>
          disciplined_record (hh.schedules.spun loops)

/-! ## The timer -/

/-- The handler opens its sections while interrupts are masked. -/
theorem disciplined_tickThreads (hh : hooks.Disciplined D) (now : Nat) :
    (tickThreads hooks now).Disciplined D .off fun _ => .off := by
  refine disciplined_get.bind fun _ => ?_
  split
  · have hwake : (wakeSleepers now : Act C _).Disciplined D .off fun _ => .off :=
      Disciplined.bind (disciplined_update _) fun _ =>
        (disciplined_inspect _).bind fun _ => disciplined_get.bind fun _ => disciplined_pure rfl
    have hkind : ∀ id idle, (tickKind hooks id idle).Disciplined D .off fun _ => .off := by
      intro id idle
      unfold tickKind
      split
      · exact disciplined_pure rfl
      · refine (hh.isUser id .off).bind fun user => ?_
        split
        · exact disciplined_pure rfl
        · exact disciplined_pure rfl
    refine hwake.bind fun ⟨id, idle, woken⟩ => (hkind id idle).bind fun kind => ?_
    refine disciplined_get.bind fun _ =>
      Disciplined.bind (disciplined_update _) fun expired => ?_
    split
    · exact disciplined_modify_still fun _ => ⟨rfl, rfl, rfl, fun h => h⟩
    · exact disciplined_pure rfl
  · exact disciplined_pure rfl

theorem disciplined_setInInterrupt (inside : Bool) :
    (setInInterrupt inside : Act C Unit).Disciplined D l fun _ => l :=
  disciplined_modify_still fun _ => ⟨rfl, rfl, rfl, fun h => h⟩

theorem disciplined_timerInterrupt (hh : hooks.Disciplined D) :
    (timerInterrupt hooks).Disciplined D l fun _ => l :=
  disciplined_requireMasked_bind fun hoff => by
    subst hoff
    exact (disciplined_requireThreadContext _).bind fun _ =>
      (disciplined_setInInterrupt true).bind fun _ =>
        disciplined_advanceClock.bind fun now =>
          (disciplined_tickThreads hh now).bind fun _ => disciplined_setInInterrupt false

theorem disciplined_onTimerInterrupt (hh : hooks.Disciplined D) :
    (onTimerInterrupt hooks).Disciplined D l fun _ => l :=
  (disciplined_timerInterrupt hh).bind fun _ => disciplined_get.bind fun _ => by
    split
    · refine Disciplined.bind (disciplined_modify_still fun _ => ⟨rfl, rfl, rfl, fun h => h⟩)
        fun _ => ?_
      exact disciplined_yieldNow hh
    · exact disciplined_pure rfl

end Kernel

/-! ## Calls -/

namespace Call

open Act

variable {D : Discipline C} {hooks : Hooks C} {l : Level}

/-- The level at which a call comes back that was made at level `l`. -/
def levelAfter {γ : Type} (l : Level) : Call γ → Reply → Level
  | start, .broughtUp r => Kernel.levelAfterStart l r
  | exit, _ => .off
  | setLevel l', _ => l'
  | _, _ => l

/-- Whether a call may ask for a decision, or may ask the process layer. -/
def isScheduling {γ : Type} : Call γ → Bool
  | block => true
  | yieldNow => true
  | exit => true
  | sleepUntil _ => true
  | sleep _ => true
  | realTimeSleep _ _ => true
  | sleepMillis _ => true
  | sleepMicros _ => true
  | sleepNanos _ => true
  | sleepFor _ => true
  | timerInterrupt => true
  | onTimerInterrupt => true
  | _ => false

/-- The other calls are between the kernel and its log, and the process layer has no part in them. -/
theorem disciplined_inner {c : Call C.Body} (hc : c.isScheduling = false) :
    (c.perform hooks).Disciplined D l (c.levelAfter l) := by
  have hdone {act : Act C Unit} (h : act.Disciplined D l fun _ => l) :
      (do act; return .done : Act C Reply).Disciplined D l fun _ => l :=
    h.bind fun _ => disciplined_pure rfl
  cases c with
  | init => exact Kernel.disciplined_init.bind fun _ => disciplined_pure rfl
  | start => exact Kernel.disciplined_start.bind fun _ => disciplined_pure rfl
  | create => exact (Kernel.disciplined_create _ _ _).bind fun _ => disciplined_pure rfl
  | unblock id => exact hdone (Kernel.disciplined_unblock id)
  | setPriority => exact hdone (Kernel.disciplined_section _)
  | setLevel l' =>
    exact disciplined_level_bind <| (disciplined_setLevel l').bind fun _ => disciplined_pure rfl
  | advanceClock => exact Kernel.disciplined_advanceClock.bind fun _ => disciplined_pure rfl
  | setLoopsPerTick =>
    exact hdone (disciplined_modify_still fun _ => ⟨rfl, rfl, rfl, fun h => h⟩)
  | dumpStats => exact hdone (disciplined_get.bind fun _ => disciplined_log _)
  | timerStats => exact hdone (disciplined_get.bind fun _ => disciplined_log _)
  | installHooks =>
    exact hdone (disciplined_modify_still fun _ => ⟨rfl, rfl, rfl, fun _ => rfl⟩)
  | _ => cases hc

/-- Every call comes back at a level that can be told beforehand. -/
theorem disciplined (hh : hooks.Disciplined D) (c : Call C.Body) :
    (c.perform hooks).Disciplined D l (c.levelAfter l) := by
  have hdone {act : Act C Unit} {p : Level} (h : act.Disciplined D l fun _ => p) :
      (do act; return .done : Act C Reply).Disciplined D l fun _ => p :=
    h.bind fun _ => disciplined_pure rfl
  by_cases hc : c.isScheduling = true
  · cases c with
    | block => exact hdone (Kernel.disciplined_block hh)
    | yieldNow => exact hdone (Kernel.disciplined_yieldNow hh)
    | exit => exact hdone (Kernel.disciplined_exit hh)
    | sleepUntil => exact hdone (Kernel.disciplined_sleepUntil hh _)
    | sleep => exact hdone (Kernel.disciplined_sleep hh _)
    | realTimeSleep => exact hdone (Kernel.disciplined_realTimeSleep hh _ _)
    | sleepMillis => exact hdone (Kernel.disciplined_realTimeSleep hh _ _)
    | sleepMicros => exact hdone (Kernel.disciplined_realTimeSleep hh _ _)
    | sleepNanos => exact hdone (Kernel.disciplined_realTimeSleep hh _ _)
    | sleepFor => exact hdone (Kernel.disciplined_realTimeSleep hh _ _)
    | timerInterrupt => exact hdone (Kernel.disciplined_timerInterrupt hh)
    | onTimerInterrupt => exact hdone (Kernel.disciplined_onTimerInterrupt hh)
    | _ => cases hc
  · exact disciplined_inner ((Bool.not_eq_true _).mp hc)

end Call

/-! ## Process layers that only ask -/

namespace Hooks

open Act

variable {D : Discipline C} {hooks : Hooks C}

/-- A call of a hook is noted before the hook runs. -/
theorem disciplined_call {point : HookPoint} {id : ThreadId} {absent : α} {act : Act C α} {l : Level}
    (hnoted : ∀ k : Kernel C, D.returned k { k with history := .hook point id l :: k.history })
    (hact : act.Disciplined D l fun _ => l) :
    (call point id absent act).Disciplined D l fun _ => l :=
  disciplined_get.bind fun _ => by
    split
    · exact disciplined_level_bind <| (disciplined_record hnoted).bind fun _ => hact
    · exact disciplined_pure rfl

/-- What hooks that stop have done till then. -/
structure StopWithin (R : Kernel C → Kernel C → Prop) (hooks : Hooks C) : Prop where
  activate : ∀ {id : ThreadId} {k : Kernel C} {e : Fault} {k' : Kernel C},
    hooks.activate id k = .error e k' → R k k'
  exit : ∀ {id : ThreadId} {k : Kernel C} {e : Fault} {k' : Kernel C},
    hooks.exit id k = .error e k' → R k k'
  isUser : ∀ {id : ThreadId} {k : Kernel C} {e : Fault} {k' : Kernel C},
    hooks.isUser id k = .error e k' → R k k'

/-- Hooks that only ask leave levels as they find them, and do nothing for which interrupts would
have to be masked. -/
theorem QueryOnly.disciplined_of (hq : hooks.QueryOnly) (hstops : hooks.StopWithin D.stopped)
    (hD : D.Schedules) (hreturned : ∀ {k k' : Kernel C}, k.Adds Event.Masked k' → D.returned k k') :
    hooks.Disciplined D := by
  have hcall {β : Type} {act : Act C β} (hask : act.OnlyAsks)
      (hstop : ∀ {k e k'}, act k = .error e k' → D.stopped k k') (point : HookPoint) (id : ThreadId)
      (absent : β) (l : Level) : (call point id absent act).Disciplined D l fun _ => l := by
    have hnoted : (.hook point id l : Event C.Note).Masked := trivial
    refine disciplined_call (fun k => hreturned (Kernel.adds_record hnoted k))
      ⟨fun hl h => ?_, fun _ h => hstop h⟩
    obtain ⟨hcpu, hadds⟩ := adds_of_onlyAsks hask h
    exact ⟨hcpu ▸ hl, hreturned hadds⟩
  exact ⟨hD, fun id => hcall (hq.activate id) hstops.activate .activate id (),
    fun id => hcall (hq.exit id) hstops.exit .exit id (),
    fun id => hcall (hq.isUser id) hstops.isUser .isUser id false⟩

/-- Of calls that come back this is so whatever hooks have done that stop. -/
theorem QueryOnly.disciplined (hq : hooks.QueryOnly) : hooks.Disciplined (.returning (.masked C)) :=
  hq.disciplined_of ⟨fun _ => trivial, fun _ => trivial, fun _ => trivial⟩
    Discipline.schedules_masked.returning fun h => h

end Hooks

namespace Call

variable {hooks : Hooks C} {c : Call C.Body} {r : Reply} {k k' : Kernel C}

/-- A call that comes back does so at a level that can be told beforehand, and has done with interrupts
masked what must be done so. -/
theorem adds_masked (hq : hooks.QueryOnly) (h : c.perform hooks k = .ok r k') :
    Maskable.level k'.cpu = c.levelAfter (Maskable.level k.cpu) r ∧ k.Adds Event.Masked k' :=
  (c.disciplined hq.disciplined).returns rfl h

end Call
end RoundRobin
