import RoundRobin.Clock.Delay

/-!
# Inquiries

An inquiry asks whether numbers of turns fit, one after another, and may choose each question by the
answers so far. As a tree it holds all sequences of answers at once: a sequence of answers picks a path
through it. Code that may ask in any monad is the tree that it makes of itself, run in that monad; so
what holds of every path holds of every clock, whatever the clock does while it finds an answer.
-/

namespace RoundRobin.Delay

/-- Questions about numbers of turns, up to a result. -/
inductive Inquiry (α : Type) where
  | done (a : α)
  | ask (turns : Nat) (next : Bool → Inquiry α)

namespace Inquiry

variable {α β ε σ : Type} {fits : Nat → EStateM ε σ Bool} {s s' : σ} {answers : Nat → Bool}

/-- One inquiry after another. -/
def bind (f : α → Inquiry β) : Inquiry α → Inquiry β
  | done a => f a
  | ask turns next => ask turns fun answer => (next answer).bind f

instance : Monad Inquiry where
  pure := done
  bind t f := t.bind f

/-- A single question. -/
def probe (turns : Nat) : Inquiry Bool := ask turns done

theorem bind_done (t : Inquiry α) : t.bind done = t := by
  induction t with
  | done a => rfl
  | ask turns next ih => exact congrArg (ask turns) (funext ih)

theorem bind_bind {γ : Type} (t : Inquiry α) (f : α → Inquiry β) (g : β → Inquiry γ) :
    (t.bind f).bind g = t.bind fun a => (f a).bind g := by
  induction t with
  | done a => rfl
  | ask turns next ih => exact congrArg (ask turns) (funext ih)

instance : LawfulMonad Inquiry := LawfulMonad.mk' Inquiry bind_done (fun _ _ => rfl) bind_bind

/-! ## The questions of calibration -/

section Questions

-- Powers here are those of natural numbers themselves, whatever other powers are in scope.
attribute [local instance (high)] instPowNat

/-- The doubling asks about the next power of two, and goes on if it fits. -/
theorem lastFit_succ_bind (left : Nat) (f : Option Nat → Inquiry α) :
    (lastFit probe (left + 1) >>= f) = ask (2 ^ (31 - left)) fun fits =>
      if fits then lastFit probe left >>= f else f (some (30 - left)) := by
  refine congrArg (ask _) (funext fun fits => ?_)
  cases fits with
  | true => rfl
  | false => rfl

/-- The refinement asks about the next lower bit, and goes on in any case. -/
theorem refine_succ_bind (k bits : Nat) (f : Nat → Inquiry α) :
    (refine probe k (bits + 1) >>= f) = ask (2 ^ k + 2 ^ (k - 9 + bits)) fun fits =>
      refine probe k bits >>= fun rest => f ((if fits then 2 ^ (k - 9 + bits) else 0) + rest) := by
  refine congrArg (ask _) (funext fun fits => ?_)
  cases fits with
  | true => exact bind_bind (refine probe k bits) (fun rest => done (2 ^ (k - 9 + bits) + rest)) f
  | false => exact bind_bind (refine probe k bits) (fun rest => done (0 + rest)) f

end Questions

/-! ## Asking somebody -/

section Run

variable {m : Type → Type} [Monad m]

/-- Asks the questions of an inquiry. -/
def run (fits : Nat → m Bool) : Inquiry α → m α
  | done a => pure a
  | ask turns next => do (next (← fits turns)).run fits

variable [LawfulMonad m]

theorem run_bind (fits : Nat → m Bool) (t : Inquiry α) (f : α → Inquiry β) :
    (t >>= f).run fits = t.run fits >>= fun a => (f a).run fits := by
  induction t with
  | done a => exact (pure_bind a fun a => (f a).run fits).symm
  | ask turns next ih =>
    show (fits turns >>= fun answer => ((next answer).bind f).run fits) = _
    rw [run, bind_assoc]
    exact congrArg (fits turns >>= ·) (funext ih)

theorem run_probe (fits : Nat → m Bool) (turns : Nat) : (probe turns).run fits = fits turns :=
  bind_pure (fits turns)

theorem lastFit_eq_run (fits : Nat → m Bool) (left : Nat) :
    lastFit fits left = (lastFit probe left).run fits := by
  induction left with
  | zero => rfl
  | succ left ih =>
    unfold lastFit
    rw [run_bind, run_probe]
    refine congrArg (fits _ >>= ·) (funext fun answer => ?_)
    cases answer with
    | true => exact ih
    | false => rfl

theorem refine_eq_run (fits : Nat → m Bool) (k bits : Nat) :
    refine fits k bits = (refine probe k bits).run fits := by
  induction bits with
  | zero => rfl
  | succ bits ih =>
    unfold refine
    dsimp only
    rw [run_bind, run_probe]
    refine congrArg (fits _ >>= ·) (funext fun answer => ?_)
    rw [run_bind, ih]
    rfl

/-- Calibration asks what its tree asks. -/
theorem calibrate_eq_run (fits : Nat → m Bool) : calibrate fits = (calibrate probe).run fits := by
  unfold calibrate
  rw [run_bind, lastFit_eq_run]
  refine congrArg (_ >>= ·) (funext fun last => ?_)
  cases last with
  | none => rfl
  | some k =>
    dsimp only
    rw [run_bind, refine_eq_run]
    rfl

end Run

/-! ## Paths -/

/-- The questions that are asked, and the result, when the answers are those of a sequence. -/
def path : Inquiry α → (Nat → Bool) → List Nat × α
  | done a, _ => ([], a)
  | ask turns next, answers =>
    let (asked, a) := (next (answers 0)).path fun i => answers (i + 1)
    (turns :: asked, a)

theorem path_pure (a : α) (answers : Nat → Bool) : (pure a : Inquiry α).path answers = ([], a) := rfl

/-- The path through one inquiry after another goes on where the first one ends. -/
theorem path_bind (t : Inquiry α) (f : α → Inquiry β) (answers : Nat → Bool) :
    (t >>= f).path answers =
      ((t.path answers).1 ++ ((f (t.path answers).2).path
          fun i => answers (i + (t.path answers).1.length)).1,
        ((f (t.path answers).2).path fun i => answers (i + (t.path answers).1.length)).2) := by
  induction t generalizing answers with
  | done a => rfl
  | ask turns next ih =>
    have hstep := ih (answers 0) fun i => answers (i + 1)
    have hpath : (ask turns next >>= f).path answers
        = (turns :: ((next (answers 0) >>= f).path fun i => answers (i + 1)).1,
          ((next (answers 0) >>= f).path fun i => answers (i + 1)).2) := rfl
    rw [hpath, hstep]
    rfl

/-- A result that is only put into another form asks nothing more. -/
theorem path_bind_pure (t : Inquiry α) (f : α → β) (answers : Nat → Bool) :
    (t >>= fun a => pure (f a)).path answers = ((t.path answers).1, f (t.path answers).2) := by
  rw [path_bind, path_pure, List.append_nil]

/-- Somebody who is asked these questions one after the other gives these answers, and is led from one
state to another by it. -/
def Answered (fits : Nat → EStateM ε σ Bool) : List Nat → (Nat → Bool) → σ → σ → Prop
  | [], _, s, s' => s' = s
  | turns :: rest, answers, s, s' => ∃ s₁, fits turns s = .ok (answers 0) s₁ ∧
    Answered fits rest (fun i => answers (i + 1)) s₁ s'

/-- Who gives the answers of a path comes to its end. -/
theorem run_of_answered {t : Inquiry α} (h : Answered fits (t.path answers).1 answers s s') :
    t.run fits s = .ok (t.path answers).2 s' := by
  induction t generalizing answers s with
  | done a =>
    obtain rfl : s' = s := h
    rfl
  | ask turns next ih =>
    obtain ⟨s₁, hfits, hrest⟩ := h
    show EStateM.bind (fits turns) _ s = _
    unfold EStateM.bind
    rw [hfits]
    exact ih _ hrest

/-- Who always answers gives the answers of some path. -/
theorem exists_answered (hanswers : ∀ turns s, ∃ answer s', fits turns s = .ok answer s')
    (t : Inquiry α) (s : σ) : ∃ answers s', Answered fits (t.path answers).1 answers s s' := by
  induction t generalizing s with
  | done a => exact ⟨fun _ => false, s, rfl⟩
  | ask turns next ih =>
    obtain ⟨answer, s₁, hfits⟩ := hanswers turns s
    obtain ⟨answers, s', hrest⟩ := ih answer s₁
    exact ⟨fun i => i.casesOn answer answers, s', s₁, hfits, hrest⟩

end Inquiry
end RoundRobin.Delay
