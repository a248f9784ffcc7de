import RoundRobin.Proofs.Kernel.Core
import RoundRobin.Proofs.Kernel.Levels
import RoundRobin.Proofs.Kernel.Questions
import RoundRobin.Proofs.Kernel.Trampoline

/-!
# The discipline of interrupt levels

Every operation gives its caller the interrupt level back, whichever it was. A start that succeeds is
the one that enables interrupts, and an exit leaves them masked for the thread that comes next, whose
trampoline enables them. Decisions, switches and changes of the tables are never made with interrupts
enabled, neither in an operation that comes back nor in one that stops.
-/

namespace RoundRobin

variable {C : Client} {hooks : Hooks C} {α β : Type}

/-! ## Code that runs at any level -/

namespace Act

variable {act : Act C α}

end Act

/-! ## Process layers that only ask, even if they stop -/

/-- Nothing was done but ask. There may be reports, and what the client keeps for itself may be another;
the level is left open, since a question that stops leaves interrupts masked. -/
def Kernel.Asked (k k' : Kernel C) : Prop :=
  ∃ (reports : List (Event C.Note)) (client : C.State) (cpu : FlagCpu),
    (∀ e ∈ reports, e.isReport = true) ∧ k' = { k with history := reports ++ k.history, client, cpu }

theorem Kernel.Asked.adds {k k' : Kernel C} (h : k.Asked k') : k.Adds Event.Masked k' := by
  obtain ⟨reports, client, cpu, hreports, rfl⟩ := h
  exact adds_reports hreports client cpu k

/-- With hooks that only ask every call is careful. -/
theorem Hooks.QueryOnly.disciplined_masked (hq : hooks.QueryOnly)
    (hstops : hooks.StopWithin Kernel.Asked) : hooks.Disciplined (.masked C) :=
  hq.disciplined_of ⟨fun h => (hstops.activate h).adds, fun h => (hstops.exit h).adds,
    fun h => (hstops.isUser h).adds⟩ Discipline.schedules_masked fun h => h

/-! ## Questions -/

namespace Kernel

open Act

variable {D : Discipline C} {l : Level}

end Kernel

/-! ## The trampoline -/

namespace Kernel

open Act

variable {k k' : Kernel C} {body : C.Body → Act C Bool} {idle atHalt : Act C Unit}

end Kernel

/-! ## Every operation -/

/-- What every call adds to the history every run adds to it. -/
theorem Run.adds {allowed : Kernel C → Call C.Body → Prop} {k k' : Kernel C}
    {calls : List (Call C.Body)} (hq : hooks.QueryOnly) (hrun : Run hooks allowed k calls k') :
    k.Adds Event.Masked k' := by
  induction hrun with
  | nil => exact .refl k
  | snoc _ _ step ih => exact ih.trans (Call.adds_masked hq step).2

/-- What is added to an empty history is all of it. -/
theorem Kernel.Adds.masked {config : Config} {client : C.State} {k₀ k : Kernel C}
    (h : k₀.Adds Event.Masked k) (h₀ : Kernel.ofConfig config client = .ok k₀) :
    ∀ e ∈ k.history, e.Masked := by
  obtain ⟨new, hnew, hmasked, _⟩ := h.events
  have hnone : k₀.history = [] := by
    obtain ⟨_, _, rfl⟩ := Kernel.eq_of_ofConfig h₀
    rfl
  rw [hnone, List.append_nil] at hnew
  exact hnew ▸ hmasked

end RoundRobin
