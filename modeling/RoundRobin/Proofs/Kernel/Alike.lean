import RoundRobin.Proofs.Kernel.Act
import RoundRobin.Proofs.Kernel.Run
import RoundRobin.Proofs.Tables.Stripped

/-!
# Kernels that differ in advisory data

Two kernels are alike when they differ in names, priorities, what was logged and what the client keeps,
and in nothing else. Two operations `Agree` when they lead from kernels that are alike to kernels that
are alike, if both come back. Every operation agrees with itself, under any two process layers that only
ask, and with itself under another name or priority.
-/

namespace RoundRobin

variable {C : Client} {α β γ δ : Type}

/-- A kernel without names, priorities, history and client. -/
structure Bare (C : Client) where
  config : Config
  clock : Clock
  tables : Tables C.Body
  nextId : ThreadId
  cpu : FlagCpu
  initialized : Bool
  started : Bool
  inInterrupt : Bool
  yieldOnReturn : Bool
  image : Image

def Kernel.bare (k : Kernel C) : Bare C where
  config := k.config
  clock := k.clock
  tables := k.tables.stripped
  nextId := k.nextId
  cpu := k.cpu
  initialized := k.initialized
  started := k.started
  inInterrupt := k.inInterrupt
  yieldOnReturn := k.yieldOnReturn
  image := k.image

/-- The kernels differ in advisory data only. -/
def Kernel.Alike (k₁ k₂ : Kernel C) : Prop := k₁.bare = k₂.bare

namespace Kernel.Alike

variable {k₁ k₂ : Kernel C}

/-- What is made from the bare kernels in the same way is alike again. -/
theorem map {k₁' k₂' : Kernel C} (h : k₁.Alike k₂) (g : Bare C → Bare C)
    (h₁ : k₁'.bare = g k₁.bare) (h₂ : k₂'.bare = g k₂.bare) : k₁'.Alike k₂' :=
  h₁.trans ((congrArg g h).trans h₂.symm)

theorem config (h : k₁.Alike k₂) : k₁.config = k₂.config := congrArg Bare.config h

theorem clock (h : k₁.Alike k₂) : k₁.clock = k₂.clock := congrArg Bare.clock h

theorem tables (h : k₁.Alike k₂) : k₁.tables.stripped = k₂.tables.stripped :=
  congrArg Bare.tables h

theorem nextId (h : k₁.Alike k₂) : k₁.nextId = k₂.nextId := congrArg Bare.nextId h

theorem cpu (h : k₁.Alike k₂) : k₁.cpu = k₂.cpu := congrArg Bare.cpu h

theorem initialized (h : k₁.Alike k₂) : k₁.initialized = k₂.initialized :=
  congrArg Bare.initialized h

theorem started (h : k₁.Alike k₂) : k₁.started = k₂.started := congrArg Bare.started h

theorem inInterrupt (h : k₁.Alike k₂) : k₁.inInterrupt = k₂.inInterrupt :=
  congrArg Bare.inInterrupt h

theorem yieldOnReturn (h : k₁.Alike k₂) : k₁.yieldOnReturn = k₂.yieldOnReturn :=
  congrArg Bare.yieldOnReturn h

theorem image (h : k₁.Alike k₂) : k₁.image = k₂.image := congrArg Bare.image h

theorem current (h : k₁.Alike k₂) : k₁.tables.current = k₂.tables.current :=
  congrArg (fun s => s.tables.current) h

theorem idle (h : k₁.Alike k₂) : k₁.tables.idle = k₂.tables.idle :=
  congrArg (fun s => s.tables.idle) h

theorem pool (h : k₁.Alike k₂) : k₁.tables.pool = k₂.tables.pool :=
  congrArg (fun s => s.tables.pool) h

end Kernel.Alike

namespace Act

variable {V : α → β → Prop} {W : γ → δ → Prop} {act₁ : Act C α} {act₂ : Act C β}

/-- From kernels that are alike the operations lead to kernels that are alike, and to results in a
relation, if both come back. -/
def Agree (V : α → β → Prop) (act₁ : Act C α) (act₂ : Act C β) : Prop :=
  ∀ ⦃k₁ k₂ : Kernel C⦄, k₁.Alike k₂ → ∀ ⦃a k₁' b k₂'⦄, act₁ k₁ = .ok a k₁' → act₂ k₂ = .ok b k₂' →
    V a b ∧ k₁'.Alike k₂'

theorem Agree.bind {f : α → Act C γ} {g : β → Act C δ} (h : Agree V act₁ act₂)
    (hf : ∀ a b, V a b → Agree W (f a) (g b)) : Agree W (act₁ >>= f) (act₂ >>= g) := by
  intro k₁ k₂ halike c k₁' d k₂' h₁ h₂
  obtain ⟨a, m₁, hact₁, h₁⟩ := bind_eq_ok_iff.mp h₁
  obtain ⟨b, m₂, hact₂, h₂⟩ := bind_eq_ok_iff.mp h₂
  obtain ⟨hab, hmid⟩ := h halike hact₁ hact₂
  exact hf a b hab hmid h₁ h₂

/-- Steps with the same result. -/
theorem Agree.bindEq {act₁ act₂ : Act C α} {f : α → Act C γ} {g : α → Act C δ}
    (h : Agree Eq act₁ act₂) (hf : ∀ a, Agree W (f a) (g a)) :
    Agree W (act₁ >>= f) (act₂ >>= g) :=
  h.bind fun a _ hab => hab ▸ hf a

theorem agree_pure {a : α} {b : β} (h : V a b) : Agree V (pure a : Act C α) (pure b) := by
  intro k₁ k₂ halike a' k₁' b' k₂' h₁ h₂
  obtain ⟨rfl, rfl⟩ := pure_eq_ok_iff.mp h₁
  obtain ⟨rfl, rfl⟩ := pure_eq_ok_iff.mp h₂
  exact ⟨h, halike⟩

theorem agree_throw (e : Fault) : Agree V (throw e : Act C α) act₂ :=
  fun _ _ _ _ _ _ _ h => nomatch h

theorem agree_get : Agree Kernel.Alike (get : Act C (Kernel C)) get := by
  intro k₁ k₂ halike a k₁' b k₂' h₁ h₂
  cases h₁
  cases h₂
  exact ⟨halike, halike⟩

theorem agree_modify {f g : Kernel C → Kernel C}
    (h : ∀ k₁ k₂ : Kernel C, k₁.Alike k₂ → (f k₁).Alike (g k₂)) :
    Agree Eq (modify f : Act C Unit) (modify g) := by
  intro k₁ k₂ halike a k₁' b k₂' h₁ h₂
  rw [modify_eq_ok_iff.mp h₁, modify_eq_ok_iff.mp h₂]
  exact ⟨rfl, h k₁ k₂ halike⟩

theorem agree_orFault (r : Except Fault α) : Agree Eq (orFault r : Act C α) (orFault r) := by
  intro k₁ k₂ halike a k₁' b k₂' h₁ h₂
  obtain ⟨ha, rfl⟩ := orFault_eq_ok_iff.mp h₁
  obtain ⟨hb, rfl⟩ := orFault_eq_ok_iff.mp h₂
  exact ⟨Except.ok.inj (ha.symm.trans hb), halike⟩

/-- Whatever the history says, kernels stay alike. -/
theorem agree_record (e₁ e₂ : Event C.Note) : Agree Eq (record e₁) (record e₂) :=
  agree_modify fun _ _ h => h

theorem agree_log (m₁ m₂ : LogMessage) : Agree Eq (log m₁ : Act C Unit) (log m₂) :=
  agree_record _ _

theorem agree_level : Agree Eq (level : Act C Level) level :=
  agree_get.bind fun _ _ h => agree_pure (by rw [h.cpu])

theorem agree_setLevel (l : Level) : Agree Eq (setLevel l : Act C Unit) (setLevel l) :=
  agree_modify fun _ _ h => h.map (fun s => { s with cpu := Maskable.setLevel l s.cpu }) rfl rfl

/-- A check that passes in both kernels or in neither. -/
theorem agree_check (p : Prop) [Decidable p] (e : Fault) :
    Agree Eq (if p then throw e else pure () : Act C Unit) (if p then throw e else pure ()) := by
  split
  · exact agree_throw e
  · exact agree_pure rfl

theorem agree_requireMasked (e : Fault) :
    Agree Eq (requireMasked e : Act C Unit) (requireMasked e) :=
  agree_level.bindEq fun _ => agree_check _ e

theorem agree_requireUnmasked (e : Fault) :
    Agree Eq (requireUnmasked e : Act C Unit) (requireUnmasked e) :=
  agree_level.bindEq fun _ => agree_check _ e

theorem agree_requireThreadContext (e : Fault) :
    Agree Eq (requireThreadContext e : Act C Unit) (requireThreadContext e) :=
  agree_get.bind fun _ _ h => by
    rw [h.inInterrupt]
    exact agree_check _ e

theorem agree_masked (h : Agree V act₁ act₂) : Agree V (masked act₁) (masked act₂) :=
  agree_level.bindEq fun old => (agree_setLevel .off).bindEq fun _ =>
    h.bind fun _ _ hab => (agree_setLevel old).bindEq fun _ => agree_pure hab

theorem agree_update {f : Tables C.Body → Except Fault (α × Tables C.Body)}
    {g : Tables C.Body → Except Fault (β × Tables C.Body)}
    (h : ∀ t₁ t₂ a b t₁' t₂', t₁.stripped = t₂.stripped → f t₁ = .ok (a, t₁') →
      g t₂ = .ok (b, t₂') → V a b ∧ t₁'.stripped = t₂'.stripped) :
    Agree V (update f) (update g) := by
  intro k₁ k₂ halike a k₁' b k₂' h₁ h₂
  obtain ⟨t₁, ht₁, rfl⟩ := update_eq_ok_iff.mp h₁
  obtain ⟨t₂, ht₂, rfl⟩ := update_eq_ok_iff.mp h₂
  obtain ⟨hab, htables⟩ := h _ _ _ _ _ _ halike.tables ht₁ ht₂
  refine ⟨hab, halike.map (fun s => { s with tables := t₁.stripped }) rfl ?_⟩
  rw [htables]
  rfl

/-- A critical section that does to stripped tables what it does to the tables. -/
theorem agree_update_of_stripped (f : Tables C.Body → Except Fault (α × Tables C.Body))
    (h : ∀ t a t', f t = .ok (a, t') → f t.stripped = .ok (a, t'.stripped)) :
    Agree Eq (update f) (update f) :=
  agree_update fun t₁ t₂ a b t₁' t₂' ht h₁ h₂ => by
    have hboth := (h _ _ _ h₁).symm.trans ((congrArg f ht).trans (h _ _ _ h₂))
    rw [Except.ok.injEq, Prod.mk.injEq] at hboth
    exact hboth

theorem agree_change {f g : Tables C.Body → Except Fault (Tables C.Body)}
    (h : ∀ t₁ t₂ t₁' t₂', t₁.stripped = t₂.stripped → f t₁ = .ok t₁' → g t₂ = .ok t₂' →
      t₁'.stripped = t₂'.stripped) :
    Agree Eq (change f) (change g) :=
  agree_update fun _ _ _ _ _ _ ht h₁ h₂ =>
    ⟨rfl, h _ _ _ _ ht (eq_ok_of_map_unit h₁) (eq_ok_of_map_unit h₂)⟩

theorem agree_change_of_stripped (f : Tables C.Body → Except Fault (Tables C.Body))
    (h : ∀ t t', f t = .ok t' → f t.stripped = .ok t'.stripped) :
    Agree Eq (change f) (change f) :=
  agree_change fun _ _ _ _ ht h₁ h₂ =>
    Except.ok.inj ((h _ _ h₁).symm.trans ((congrArg f ht).trans (h _ _ h₂)))

theorem agree_currentId :
    Agree Eq (inspect Tables.currentId : Act C ThreadId) (inspect Tables.currentId) :=
  agree_get.bind fun k₁ k₂ h => by
    rw [show k₁.tables.currentId = k₂.tables.currentId by
      rw [Tables.currentId, Tables.currentId, h.current]]
    exact agree_orFault _

/-- Operations that leave no trace in the bare kernel. -/
theorem agree_of_bare (hV : ∀ a b, V a b)
    (h₁ : ∀ k a k', act₁ k = .ok a k' → k'.bare = k.bare)
    (h₂ : ∀ k b k', act₂ k = .ok b k' → k'.bare = k.bare) : Agree V act₁ act₂ :=
  fun k₁ k₂ halike a k₁' b k₂' hact₁ hact₂ =>
    ⟨hV a b, (h₁ k₁ a k₁' hact₁).trans (halike.trans (h₂ k₂ b k₂' hact₂).symm)⟩

theorem agree_switchContext : Agree Eq (switchContext : Act C Unit) switchContext := by
  intro k₁ k₂ halike a k₁' b k₂' h₁ h₂
  obtain ⟨_, _, rfl⟩ := switchContext_eq_ok_iff.mp h₁
  obtain ⟨_, _, rfl⟩ := switchContext_eq_ok_iff.mp h₂
  exact ⟨rfl, halike.map (fun s => { s with cpu := { s.cpu with switches := s.cpu.switches + 1 } })
    rfl rfl⟩

end Act

/-! ## Hooks that ask -/

namespace Hooks

variable {point : HookPoint} {id : ThreadId} {absent : α} {act act₁ act₂ : Act C α}

theorem bare_of_call {k k' : Kernel C} {a : α} (hask : act.OnlyAsks)
    (h : call point id absent act k = .ok a k') : k'.bare = k.bare := by
  unfold call at h
  rw [Act.get_bind] at h
  split at h
  · rw [Act.level_bind, Act.record_bind] at h
    obtain ⟨reports, client, _, rfl⟩ := hask _ _ _ h
    rfl
  · rw [(Act.pure_eq_ok_iff.mp h).2]

/-- Two hooks that only ask give what answers they like, and make no other difference; nor does it
matter whether they are installed. -/
theorem agree_call {V : α → α → Prop} (hV : ∀ a b, V a b) (h₁ : act₁.OnlyAsks) (h₂ : act₂.OnlyAsks) :
    Act.Agree V (call point id absent act₁) (call point id absent act₂) :=
  Act.agree_of_bare hV (fun _ _ _ => bare_of_call h₁) fun _ _ _ => bare_of_call h₂

end Hooks

/-! ## Calls that differ in advisory data -/

/-- Two valid priorities, or one priority twice. -/
def Priority.Interchangeable (priority₁ priority₂ : Nat) : Prop :=
  priority₁ = priority₂ ∨ priority₁ ≤ highest ∧ priority₂ ≤ highest

theorem Priority.Interchangeable.valid_iff {priority₁ priority₂ : Nat}
    (h : Interchangeable priority₁ priority₂) : priority₁ ≤ highest ↔ priority₂ ≤ highest := by
  rcases h with rfl | ⟨h₁, h₂⟩
  · exact Iff.rfl
  · exact iff_of_true h₁ h₂

/-- The calls differ in a name or a priority, if they differ at all. -/
inductive Call.Alike {β : Type} : Call β → Call β → Prop where
  | same (c : Call β) : Alike c c
  | create (name₁ name₂ : String) {priority₁ priority₂ : Nat}
      (priorities : Priority.Interchangeable priority₁ priority₂) (body : β) :
      Alike (.create name₁ priority₁ body) (.create name₂ priority₂ body)
  | setPriority (priority₁ priority₂ : Nat) : Alike (.setPriority priority₁) (.setPriority priority₂)

/-! ## Giving up the processor -/

namespace Kernel

open Act

variable {hooks₁ hooks₂ : Hooks C}

section Leaving

variable (hq₁ : hooks₁.QueryOnly) (hq₂ : hooks₂.QueryOnly)

include hq₁ hq₂

theorem agree_giveUpCpu (status : Status) :
    Agree Eq (giveUpCpu hooks₁ status) (giveUpCpu hooks₂ status) := by
  refine (agree_requireMasked _).bindEq fun _ => ?_
  refine (agree_update_of_stripped (Tables.giveUp status) fun _ _ _ => Tables.stripped_giveUp).bindEq
    fun d => ?_
  refine agree_level.bindEq fun _ => (agree_record _ _).bindEq fun _ => ?_
  refine Agree.bindEq
    (Hooks.agree_call (fun _ _ => rfl) (hq₁.activate d.next) (hq₂.activate d.next)) fun _ => ?_
  split
  · exact agree_switchContext
  · exact agree_pure rfl

theorem agree_block : Agree Eq (block hooks₁) (block hooks₂) :=
  (agree_requireThreadContext _).bindEq fun _ => (agree_requireMasked _).bindEq fun _ =>
    agree_giveUpCpu hq₁ hq₂ _

theorem agree_yieldNow : Agree Eq (yieldNow hooks₁) (yieldNow hooks₂) :=
  (agree_requireThreadContext _).bindEq fun _ => agree_masked <|
    (agree_change_of_stripped Tables.requeueCurrent fun _ _ => Tables.stripped_requeueCurrent).bindEq
      fun _ => agree_giveUpCpu hq₁ hq₂ _

theorem agree_sleepUntil (w : Nat) : Agree Eq (sleepUntil hooks₁ w) (sleepUntil hooks₂ w) :=
  (agree_requireThreadContext _).bindEq fun _ => agree_masked <|
    (agree_change_of_stripped (Tables.fallAsleep w) fun _ _ => Tables.stripped_fallAsleep).bindEq
      fun _ => agree_giveUpCpu hq₁ hq₂ _

theorem agree_exit : Agree Eq (exit hooks₁) (exit hooks₂) :=
  (agree_requireThreadContext _).bindEq fun _ => agree_currentId.bindEq fun id =>
    (agree_log _ _).bindEq fun _ =>
      Agree.bindEq (Hooks.agree_call (fun _ _ => rfl) (hq₁.exit id) (hq₂.exit id)) fun _ =>
        (agree_setLevel _).bindEq fun _ => agree_giveUpCpu hq₁ hq₂ _

theorem agree_sleep (n : Nat) : Agree Eq (sleep hooks₁ n) (sleep hooks₂ n) :=
  agree_get.bind fun _ _ h => by
    rw [h.clock]
    exact (agree_requireUnmasked _).bindEq fun _ => agree_sleepUntil hq₁ hq₂ _

theorem agree_realTimeSleep (num denom : Nat) :
    Agree Eq (realTimeSleep hooks₁ num denom) (realTimeSleep hooks₂ num denom) :=
  agree_get.bind fun _ _ h => by
    rw [h.clock]
    refine (agree_orFault _).bindEq fun _ => (agree_requireUnmasked _).bindEq fun _ => ?_
    split
    · exact agree_sleep hq₁ hq₂ _
    · exact (agree_orFault _).bindEq fun _ => agree_record _ _

end Leaving

/-! ## Making threads -/

theorem agree_unblock (id : ThreadId) : Agree Eq (unblock id : Act C Unit) (unblock id) :=
  agree_masked (agree_change_of_stripped (Tables.unblock id) fun _ _ => Tables.stripped_unblock)

theorem agree_takePage : Agree Eq (takePage : Act C (Option Page)) takePage :=
  agree_masked <| agree_get.bind fun _ _ h => by
    rw [h.pool]
    split
    · exact agree_pure rfl
    · refine Agree.bindEq (agree_change_of_stripped _ fun _ _ hpool => ?_) fun _ => agree_pure rfl
      cases hpool
      rfl

theorem agree_takeId : Agree Eq (takeId : Act C ThreadId) takeId := by
  intro k₁ k₂ halike a k₁' b k₂' h₁ h₂
  cases h₁
  cases h₂
  exact ⟨halike.nextId, halike.map (fun s => { s with nextId := s.nextId.next }) rfl rfl⟩

theorem agree_spawn (name₁ name₂ : String) (priority₁ priority₂ : Nat) (entry : Entry C.Body) :
    Agree Eq (spawn name₁ priority₁ entry) (spawn name₂ priority₂ entry) :=
  agree_get.bind fun _ _ h => by
    rw [h.initialized, h.image]
    split
    · refine agree_takePage.bindEq fun r => ?_
      split
      · exact agree_pure rfl
      · refine agree_takeId.bindEq fun id => (agree_masked ?_).bindEq fun _ => agree_pure rfl
        refine agree_change fun t₁ t₂ t₁' t₂' ht h₁ h₂ => ?_
        cases h₁
        cases h₂
        exact Tables.stripped_insertThread_congr ht rfl
    · exact agree_pure rfl

theorem agree_create (name₁ name₂ : String) {priority₁ priority₂ : Nat}
    (h : Priority.Interchangeable priority₁ priority₂) (body : C.Body) :
    Agree Eq (create name₁ priority₁ body) (create name₂ priority₂ body) := by
  unfold create
  by_cases hvalid : priority₁ ≤ Priority.highest
  · rw [if_neg (Nat.not_lt_of_le hvalid), if_neg (Nat.not_lt_of_le (h.valid_iff.mp hvalid))]
    refine (agree_spawn _ _ _ _ _).bindEq fun r => ?_
    split
    · exact agree_pure rfl
    · exact (agree_unblock _).bindEq fun _ => (agree_log _ _).bindEq fun _ => agree_pure rfl
  · -- a priority out of range is named in the error, so it has to be the same one
    obtain rfl : priority₁ = priority₂ := h.resolve_right fun hboth => hvalid hboth.1
    have hbad := Nat.lt_of_not_le hvalid
    rw [if_pos hbad, if_pos hbad]
    exact agree_pure rfl

/-! ## Bringing a kernel up -/

theorem agree_init : Agree Eq (init : Act C (Except BringUpError Unit)) init :=
  (agree_requireMasked _).bindEq fun _ => agree_get.bind fun _ _ h => by
    rw [h.initialized]
    split
    · exact agree_pure rfl
    · refine Agree.bindEq
        (agree_modify fun _ _ h => h.map (fun s => { s with initialized := true }) rfl rfl) fun _ => ?_
      refine agree_takeId.bindEq fun id => Agree.bindEq
        (agree_change fun t₁ t₂ t₁' t₂' ht h₁ h₂ => ?_) fun _ => ?_
      · cases h₁
        cases h₂
        exact congrArg (fun u : Tables C.Body => { u with current := some id, boot := some id })
          (Tables.stripped_insertThread_congr ht rfl)
      · exact agree_get.bind fun _ _ _ => (agree_log _ _).bindEq fun _ => agree_pure rfl

theorem agree_setStarted (started : Bool) : Agree Eq (setStarted started : Act C Unit) (setStarted started) :=
  agree_modify fun _ _ h => h.map (fun s => { s with started }) rfl rfl

theorem agree_start : Agree Eq (start : Act C (Except Error Unit)) start :=
  agree_get.bind fun _ _ h => by
    rw [h.initialized, h.started]
    split
    · exact agree_pure rfl
    · split
      · exact agree_pure rfl
      · refine (agree_setStarted true).bindEq fun _ => (agree_spawn _ _ _ _ _).bindEq fun r => ?_
        split
        · exact (agree_setStarted false).bindEq fun _ => agree_pure rfl
        · refine Agree.bindEq (agree_masked (agree_change_of_stripped _ fun t t' ht => ?_)) fun _ =>
            (agree_log _ _).bindEq fun _ => (agree_setLevel _).bindEq fun _ => agree_pure rfl
          cases ht
          rfl

theorem agree_setPriority (priority₁ priority₂ : Nat) :
    Agree Eq (setPriority priority₁ : Act C Unit) (setPriority priority₂) := by
  have hself : ∀ (priority : Nat) (t t' : Tables C.Body), (do
      let id ← t.currentId
      let _ ← t.thread id
      return t.modifyThread id fun th => { th with priority := Priority.clamp priority }
        : Except Fault (Tables C.Body)) = .ok t' → t'.stripped = t.stripped := by
    intro priority t t' h
    obtain ⟨_, _, h⟩ := Fault.bind_eq_ok_iff.mp h
    obtain ⟨_, _, h⟩ := Fault.bind_eq_ok_iff.mp h
    rw [Fault.pure_eq_ok_iff.mp h]
    exact Tables.stripped_modifyThread_self fun _ => rfl
  exact agree_masked (agree_change fun _ _ _ _ ht h₁ h₂ =>
    (hself _ _ _ h₁).trans (ht.trans (hself _ _ _ h₂).symm))

/-! ## The timer -/

theorem agree_advanceClock : Agree Eq (advanceClock : Act C Nat) advanceClock :=
  agree_get.bind fun _ _ h => by
    rw [h.clock]
    refine (agree_orFault _).bindEq fun clock => Agree.bindEq
      (agree_modify fun _ _ h => h.map (fun s => { s with clock }) rfl rfl) fun _ => agree_pure rfl

theorem agree_wakeSleepers (now : Nat) :
    Agree Eq (wakeSleepers now : Act C (ThreadId × Bool × Nat)) (wakeSleepers now) :=
  (agree_update_of_stripped (Tables.wakeDue now) fun _ _ _ => Tables.stripped_wakeDue).bindEq
    fun woken => agree_currentId.bindEq fun id => agree_get.bind fun k₁ k₂ h => agree_pure <| by
      rw [Tables.isIdle, Tables.isIdle, h.idle]

section Ticking

variable (hq₁ : hooks₁.QueryOnly) (hq₂ : hooks₂.QueryOnly)

include hq₁ hq₂

/-- The process layers may disagree about the interrupted thread, but not about the idle thread. -/
theorem agree_tickKind (id : ThreadId) (idle : Bool) :
    Agree (fun kind₁ kind₂ : TickKind => kind₁ = .idle ↔ kind₂ = .idle)
      (tickKind hooks₁ id idle) (tickKind hooks₂ id idle) := by
  unfold tickKind
  split
  · exact agree_pure Iff.rfl
  · refine Agree.bind (Hooks.agree_call (fun _ _ => trivial) (hq₁.isUser id) (hq₂.isUser id)) ?_
    intro user₁ user₂ _
    cases user₁ <;> cases user₂ <;> exact agree_pure ⟨nofun, nofun⟩

theorem agree_tickThreads (now : Nat) :
    Agree Eq (tickThreads hooks₁ now) (tickThreads hooks₂ now) :=
  agree_get.bind fun _ _ h => by
    rw [h.initialized]
    split
    · refine (agree_wakeSleepers now).bindEq fun r => ?_
      refine (agree_tickKind hq₁ hq₂ r.1 r.2.1).bind fun kind₁ kind₂ hkind => ?_
      refine agree_get.bind fun _ _ h => ?_
      rw [h.config]
      refine Agree.bindEq (agree_update fun _ _ _ _ _ _ ht h₁ h₂ =>
        Tables.stripped_charge ht hkind h₁ h₂) fun expired => ?_
      split
      · exact agree_modify fun _ _ h => h.map (fun s => { s with yieldOnReturn := true }) rfl rfl
      · exact agree_pure rfl
    · exact agree_pure rfl

theorem agree_timerInterrupt : Agree Eq (timerInterrupt hooks₁) (timerInterrupt hooks₂) := by
  have hflag : ∀ inside, Agree Eq (setInInterrupt inside : Act C Unit) (setInInterrupt inside) :=
    fun inside =>
      agree_modify fun _ _ h => h.map (fun s => { s with inInterrupt := inside }) rfl rfl
  exact (agree_requireMasked _).bindEq fun _ => (agree_requireThreadContext _).bindEq fun _ =>
    (hflag true).bindEq fun _ => agree_advanceClock.bindEq fun now =>
      (agree_tickThreads hq₁ hq₂ now).bindEq fun _ => hflag false

theorem agree_onTimerInterrupt : Agree Eq (onTimerInterrupt hooks₁) (onTimerInterrupt hooks₂) :=
  (agree_timerInterrupt hq₁ hq₂).bindEq fun _ => agree_get.bind fun _ _ h => by
    rw [h.yieldOnReturn]
    split
    · exact Agree.bindEq
        (agree_modify fun _ _ h => h.map (fun s => { s with yieldOnReturn := false }) rfl rfl)
        fun _ => agree_yieldNow hq₁ hq₂
    · exact agree_pure rfl

end Ticking
end Kernel

/-! ## All calls -/

/-- To install a process layer leaves no trace in the bare kernel. -/
theorem Call.bare_of_installHooks {hooks : Hooks C} {k k' : Kernel C} {r : Reply}
    (h : Call.installHooks.perform hooks k = .ok r k') : k'.bare = k.bare := by
  obtain ⟨_, h⟩ := Act.ok_of_bind_pure h
  rw [Act.modify_eq_ok_iff.mp h]
  rfl

theorem Call.agree {hooks₁ hooks₂ : Hooks C} (hq₁ : hooks₁.QueryOnly) (hq₂ : hooks₂.QueryOnly)
    {c₁ c₂ : Call C.Body} (h : c₁.Alike c₂) :
    Act.Agree Eq (c₁.perform hooks₁) (c₂.perform hooks₂) := by
  have hdone {act₁ act₂ : Act C Unit} (h : Act.Agree Eq act₁ act₂) :
      Act.Agree Eq (do act₁; return .done : Act C Reply) (do act₂; return .done) :=
    h.bindEq fun _ => Act.agree_pure rfl
  cases h with
  | create name₁ name₂ hp body =>
    exact (Kernel.agree_create name₁ name₂ hp body).bindEq fun _ => Act.agree_pure rfl
  | setPriority p₁ p₂ => exact hdone (Kernel.agree_setPriority p₁ p₂)
  | same =>
    cases c₁ with
    | init => exact Kernel.agree_init.bindEq fun _ => Act.agree_pure rfl
    | start => exact Kernel.agree_start.bindEq fun _ => Act.agree_pure rfl
    | create => exact (Kernel.agree_create _ _ (.inl rfl) _).bindEq fun _ => Act.agree_pure rfl
    | unblock id => exact hdone (Kernel.agree_unblock id)
    | block => exact hdone (Kernel.agree_block hq₁ hq₂)
    | yieldNow => exact hdone (Kernel.agree_yieldNow hq₁ hq₂)
    | exit => exact hdone (Kernel.agree_exit hq₁ hq₂)
    | sleepUntil w => exact hdone (Kernel.agree_sleepUntil hq₁ hq₂ w)
    | sleep n => exact hdone (Kernel.agree_sleep hq₁ hq₂ n)
    | realTimeSleep => exact hdone (Kernel.agree_realTimeSleep hq₁ hq₂ _ _)
    | sleepMillis => exact hdone (Kernel.agree_realTimeSleep hq₁ hq₂ _ _)
    | sleepMicros => exact hdone (Kernel.agree_realTimeSleep hq₁ hq₂ _ _)
    | sleepNanos => exact hdone (Kernel.agree_realTimeSleep hq₁ hq₂ _ _)
    | sleepFor => exact hdone (Kernel.agree_realTimeSleep hq₁ hq₂ _ _)
    | timerInterrupt => exact hdone (Kernel.agree_timerInterrupt hq₁ hq₂)
    | onTimerInterrupt => exact hdone (Kernel.agree_onTimerInterrupt hq₁ hq₂)
    | setPriority p => exact hdone (Kernel.agree_setPriority p p)
    | setLevel l =>
      exact Act.agree_level.bindEq fun _ => (Act.agree_setLevel l).bindEq fun _ => Act.agree_pure rfl
    | advanceClock => exact Kernel.agree_advanceClock.bindEq fun _ => Act.agree_pure rfl
    | setLoopsPerTick loops =>
      exact hdone (Act.agree_modify fun _ _ h =>
        h.map (fun s => { s with clock := s.clock.setLoopsPerTick loops }) rfl rfl)
    | dumpStats => exact hdone (Act.agree_get.bind fun _ _ _ => Act.agree_log _ _)
    | timerStats => exact hdone (Act.agree_get.bind fun _ _ _ => Act.agree_log _ _)
    | installHooks => exact hdone (Act.agree_modify fun _ _ h => h)

end RoundRobin
