import RoundRobin.Kernel.Assembly
import RoundRobin.Kernel.Call
import RoundRobin.Kernel.Dispatch

/-!
# Runs

A run carries out calls one after another, and none of them stops the machine. What a run did is read
off the kernel's history: how many threads were made, and which decisions. A process layer is outside
of all this; it is `QueryOnly` when its hooks leave no trace in the scheduler.
-/

namespace RoundRobin

variable {C : Client}

/-! ## The history of a run -/

namespace Event

variable {ν : Type}

/-- Whether an event only reports: a count was logged, or the client made a note. -/
def isReport : Event ν → Bool
  | log (.tickStats _) => true
  | log (.tickCount _) => true
  | note _ => true
  | _ => false

/-- Whether a thread was made, the idle thread included. -/
def isSpawn : Event ν → Bool
  | log (.created _ _ _) => true
  | log (.started _) => true
  | _ => false

/-- The decision that was made, if one was. -/
def decision? : Event ν → Option Dispatch
  | dispatched previous next _ => some ⟨previous, next⟩
  | _ => none

theorem isSpawn_of_isReport {e : Event ν} (h : e.isReport = true) : e.isSpawn = false := by
  unfold isReport at h
  split at h
  · rfl
  · rfl
  · rfl
  · cases h

theorem decision?_of_isReport {e : Event ν} (h : e.isReport = true) : e.decision? = none := by
  unfold isReport at h
  split at h
  · rfl
  · rfl
  · rfl
  · cases h

end Event

namespace Kernel

/-- How many threads were made so far, apart from the one that booted. -/
def spawns (k : Kernel C) : Nat := k.history.countP (·.isSpawn)

/-- The decisions so far, the last one first. -/
def decisions (k : Kernel C) : List Dispatch := k.history.filterMap (·.decision?)

end Kernel

/-! ## Hooks that ask -/

/-- The operation asks the kernel and changes nothing in it: it may report, and what the client keeps
for itself may change. -/
def Act.OnlyAsks {α : Type} (act : Act C α) : Prop :=
  ∀ k a k', act k = .ok a k' → ∃ reports client,
    (∀ e ∈ reports, e.isReport = true) ∧ k' = { k with history := reports ++ k.history, client }

/-- The hooks of a process layer that only asks. -/
structure Hooks.QueryOnly (hooks : Hooks C) : Prop where
  activate : ∀ id, (hooks.activate id).OnlyAsks
  exit : ∀ id, (hooks.exit id).OnlyAsks
  isUser : ∀ id, (hooks.isUser id).OnlyAsks

theorem Act.onlyAsks_pure {α : Type} (a : α) : (pure a : Act C α).OnlyAsks := by
  intro k b k' h
  cases h
  exact ⟨[], k.client, nofun, rfl⟩

theorem Hooks.queryOnly_plain : (plain : Hooks C).QueryOnly :=
  ⟨fun _ => Act.onlyAsks_pure (), fun _ => Act.onlyAsks_pure (), fun _ => Act.onlyAsks_pure false⟩

/-! ## Runs -/

/-- Calls carried out one after another, listed from the first to the last. `allowed` says which calls
may be made in which state. -/
inductive Run (hooks : Hooks C) (allowed : Kernel C → Call C.Body → Prop) (k : Kernel C) :
    List (Call C.Body) → Kernel C → Prop where
  | nil : Run hooks allowed k [] k
  | snoc {calls : List (Call C.Body)} {c : Call C.Body} {r : Reply} {k₁ k₂ : Kernel C}
      (run : Run hooks allowed k calls k₁) (may : allowed k₁ c)
      (step : c.perform hooks k₁ = .ok r k₂) : Run hooks allowed k (calls ++ [c]) k₂

/-- Any call may be made at any time. -/
def anyCall (_ : Kernel C) (_ : Call C.Body) : Prop := True

namespace Run

variable {hooks : Hooks C} {allowed allowed' : Kernel C → Call C.Body → Prop}
  {k k' k₁ k₂ : Kernel C} {calls calls' : List (Call C.Body)}

/-- A run goes on where another one ended. -/
theorem append (h : Run hooks allowed k calls k₁) (h' : Run hooks allowed k₁ calls' k₂) :
    Run hooks allowed k (calls ++ calls') k₂ := by
  induction h' with
  | nil => rw [List.append_nil]; exact h
  | snoc _ may step ih => rw [← List.append_assoc]; exact ih.snoc may step

/-- A run under a rule is a run under a weaker one. -/
theorem mono (h : Run hooks allowed k calls k₁) (hle : ∀ k c, allowed k c → allowed' k c) :
    Run hooks allowed' k calls k₁ := by
  induction h with
  | nil => exact nil
  | snoc _ may step ih => exact ih.snoc (hle _ _ may) step

/-- A first call, and a run from where it leads. -/
theorem cons {c : Call C.Body} {r : Reply} (may : allowed k c)
    (step : c.perform hooks k = .ok r k₁) (h : Run hooks allowed k₁ calls k₂) :
    Run hooks allowed k (c :: calls) k₂ := by
  have hone : Run hooks allowed k [c] k₁ := nil.snoc may step
  exact hone.append h

theorem eq_of_nil (h : Run hooks allowed k [] k') : k' = k := by
  generalize hcalls : ([] : List (Call C.Body)) = calls at h
  cases h with
  | nil => rfl
  | snoc => exact absurd hcalls.symm (by simp)

/-- The first call of a run, and the run from where it leads. -/
theorem uncons {c : Call C.Body} (h : Run hooks allowed k (c :: calls) k') :
    ∃ r k₁, c.perform hooks k = .ok r k₁ ∧ Run hooks allowed k₁ calls k' := by
  generalize hcalls : c :: calls = all at h
  induction h generalizing calls with
  | nil => cases hcalls
  | @snoc before e r k₁ k₂ run may step ih =>
    cases before with
    | nil =>
      rw [List.nil_append, List.cons.injEq] at hcalls
      obtain ⟨rfl, rfl⟩ := hcalls
      rw [run.eq_of_nil] at step
      exact ⟨r, k₂, step, .nil⟩
    | cons e' before =>
      rw [List.cons_append, List.cons.injEq] at hcalls
      obtain ⟨rfl, rfl⟩ := hcalls
      obtain ⟨r', k₃, hfirst, hrest⟩ := ih rfl
      exact ⟨r', k₃, hfirst, hrest.snoc may step⟩

/-- The run from where the first calls of a run lead. -/
theorem rest (h : Run hooks allowed k (calls ++ calls') k₂) (hfirst : Run hooks allowed' k calls k₁) :
    Run hooks allowed k₁ calls' k₂ := by
  induction hfirst generalizing calls' with
  | nil => exact h
  | @snoc before c r k₁ k₃ _ _ step ih =>
    rw [List.append_assoc] at h
    obtain ⟨r', k₄, hc, hrest⟩ := (ih h).uncons
    rw [step] at hc
    cases hc
    exact hrest

/-- The last call of a run, and the run that led to it. -/
theorem unsnoc {c : Call C.Body} (h : Run hooks allowed k (calls ++ [c]) k') :
    ∃ r k₁, Run hooks allowed k calls k₁ ∧ c.perform hooks k₁ = .ok r k' := by
  generalize hcalls : calls ++ [c] = all at h
  cases h with
  | nil => simp at hcalls
  | @snoc before e r k₁ _ run may step =>
    obtain ⟨rfl, hlast⟩ := List.append_inj' hcalls rfl
    cases hlast
    exact ⟨r, k₁, run, step⟩

/-- What held in the beginning holds all along, or some call put an end to it. -/
theorem holds_or_ends (hrun : Run hooks allowed k calls k') {P : Kernel C → Prop} (hk : P k) :
    (P k' ∧ Run hooks (fun m _ => P m) k calls k') ∨
      ∃ earlier c later k₁ r k₂, calls = earlier ++ c :: later ∧
        Run hooks (fun m _ => P m) k earlier k₁ ∧ P k₁ ∧ c.perform hooks k₁ = .ok r k₂ ∧ ¬ P k₂ ∧
        Run hooks allowed k₂ later k' := by
  induction hrun with
  | nil => exact .inl ⟨hk, .nil⟩
  | @snoc calls c r k₁ k₂ run may step ih =>
    rcases ih with ⟨hk₁, hheld⟩ | ⟨earlier, e, later, k₃, r₃, k₄, rfl, hearlier, hk₃, he, hk₄, hlater⟩
    · by_cases hk₂ : P k₂
      · exact .inl ⟨hk₂, hheld.snoc hk₁ step⟩
      · exact .inr ⟨calls, c, [], k₁, r, k₂, rfl, hheld, hk₁, step, hk₂, .nil⟩
    · exact .inr ⟨earlier, e, later ++ [c], k₃, r₃, k₄, by simp, hearlier, hk₃, he, hk₄,
        hlater.snoc may step⟩

/-- Every call of a run obeyed a rule, or some call was the first that did not. -/
theorem obeys_or_breaks (hrun : Run hooks allowed k calls k')
    (rule : Kernel C → Call C.Body → Prop) :
    Run hooks rule k calls k' ∨ ∃ earlier c later k₁ r k₂, calls = earlier ++ c :: later ∧
      Run hooks rule k earlier k₁ ∧ ¬ rule k₁ c ∧ c.perform hooks k₁ = .ok r k₂ ∧
      Run hooks allowed k₂ later k' := by
  induction hrun with
  | nil => exact .inl .nil
  | @snoc calls c r k₁ k₂ run may step ih =>
    rcases ih with hobeys | ⟨earlier, e, later, k₃, r₃, k₄, rfl, hearlier, hbreaks, he, hlater⟩
    · by_cases hc : rule k₁ c
      · exact .inl (hobeys.snoc hc step)
      · exact .inr ⟨calls, c, [], k₁, r, k₂, rfl, hobeys, hc, step, .nil⟩
    · exact .inr ⟨earlier, e, later ++ [c], k₃, r₃, k₄, by simp, hearlier, hbreaks, he,
        hlater.snoc may step⟩

end Run

/-! ## The calls of a run -/

/-- A call that was carried out, with the kernel before it and the kernel after it. -/
structure Stage (C : Client) where
  before : Kernel C
  call : Call C.Body
  after : Kernel C

/-- The calls that were carried out, from the first to the last. -/
def Kernel.stages (hooks : Hooks C) : List (Call C.Body) → Kernel C → List (Stage C)
  | [], _ => []
  | c :: rest, k =>
    match c.perform hooks k with
    | .ok _ k' => ⟨k, c, k'⟩ :: stages hooks rest k'
    | .error _ _ => []

theorem Run.stages_snoc {hooks : Hooks C} {allowed : Kernel C → Call C.Body → Prop}
    {calls : List (Call C.Body)} {c : Call C.Body} {r : Reply} {k k₁ k₂ : Kernel C}
    (hrun : Run hooks allowed k calls k₁) (hstep : c.perform hooks k₁ = .ok r k₂) :
    k.stages hooks (calls ++ [c]) = k.stages hooks calls ++ [⟨k₁, c, k₂⟩] := by
  induction calls generalizing k with
  | nil =>
    rw [hrun.eq_of_nil] at hstep ⊢
    simp [Kernel.stages, hstep]
  | cons e rest ih =>
    obtain ⟨r', k', he, hrest⟩ := hrun.uncons
    simp only [List.cons_append, Kernel.stages, he]
    rw [ih hrest]

/-! ## Carrying out a list of calls -/

/-- The kernel that calls lead to, if all of them may be made and none stops the machine. -/
def Kernel.after (hooks : Hooks C) (may : Kernel C → Call C.Body → Bool) :
    List (Call C.Body) → Kernel C → Option (Kernel C)
  | [], k => some k
  | c :: rest, k =>
    if may k c then
      match c.perform hooks k with
      | .ok _ k' => after hooks may rest k'
      | .error _ _ => none
    else none

theorem Run.of_after {hooks : Hooks C} {may : Kernel C → Call C.Body → Bool}
    {calls : List (Call C.Body)} {k k' : Kernel C} (h : k.after hooks may calls = some k') :
    Run hooks (fun k c => may k c = true) k calls k' := by
  induction calls generalizing k with
  | nil =>
    rw [Kernel.after, Option.some.injEq] at h
    exact h ▸ .nil
  | cons c rest ih =>
    unfold Kernel.after at h
    split at h
    · next hmay =>
      split at h
      · next hstep => exact .cons hmay hstep (ih h)
      · cases h
    · cases h

theorem Kernel.perform_of_after {hooks : Hooks C} {may : Kernel C → Call C.Body → Bool}
    {c : Call C.Body} {k k' : Kernel C} (h : k.after hooks may [c] = some k') :
    ∃ r, c.perform hooks k = .ok r k' := by
  unfold after at h
  split at h
  · split at h
    · next r k₁ hstep =>
      rw [after, Option.some.injEq] at h
      exact ⟨r, h ▸ hstep⟩
    · cases h
  · cases h

/-! ## A plain client -/

/-- A client without code, state and notes of its own. -/
def plainClient : Client := { Body := Unit, State := Unit, Note := Unit }

/-- The kernel of the standard configuration, for that client. -/
def plainKernel : Kernel plainClient where
  config := .standard
  client := ()
  clock := { frequency := 100 }
  tables := {
    ready := .empty 65
    pool := { pageSize := 16384, capacity := 64 } }

theorem ofConfig_standard : Kernel.ofConfig (C := plainClient) .standard () = .ok plainKernel := rfl

end RoundRobin
