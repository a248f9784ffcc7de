import RoundRobin.Kernel.Call
import RoundRobin.Kernel.Trampoline
import RoundRobin.Proofs.Kernel.Questions
import RoundRobin.Proofs.Tables.Leave

/-!
# What a trampoline does

The code that a trampoline runs is not known here. A property of operations that is `Stepwise`, which an
operation has when all its steps have it, a trampoline has when that code has it. So it is with what
relates the kernel before each step to the kernel after it, and is reflexive and transitive.
-/

namespace RoundRobin

variable {C : Client} {α β : Type}

namespace Act

variable {R : Kernel C → Kernel C → Prop} {act : Act C α} {f : α → Act C β}

/-- An operation that comes back leads from a kernel to a related one. -/
def Within (R : Kernel C → Kernel C → Prop) (act : Act C α) : Prop :=
  ∀ k a k', act k = .ok a k' → R k k'

theorem Within.bind (htrans : ∀ {k k₁ k'}, R k k₁ → R k₁ k' → R k k') (hact : act.Within R)
    (hf : ∀ a, (f a).Within R) : (act >>= f).Within R := by
  intro k b k' h
  rw [bind_eq_ok_iff] at h
  obtain ⟨a, k₁, hfirst, hrest⟩ := h
  exact htrans (hact k a k₁ hfirst) (hf a k₁ b k' hrest)

theorem within_pure (hrefl : ∀ k, R k k) (a : α) : (pure a : Act C α).Within R := by
  intro k b k' h
  rw [(pure_eq_ok_iff.mp h).2]
  exact hrefl k

/-- The level can be read, since a reading changes nothing. -/
theorem within_level (hrefl : ∀ k, R k k) : (level : Act C Level).Within R := by
  intro k l k' h
  cases h
  exact hrefl k

/-- An operation leads from a kernel to a related one, whether it comes back or stops. -/
def Throughout (R : Kernel C → Kernel C → Prop) (act : Act C α) : Prop :=
  ∀ k, R k (act.final k)

theorem Throughout.bind (htrans : ∀ {k k₁ k'}, R k k₁ → R k₁ k' → R k k') (hact : act.Throughout R)
    (hf : ∀ a, (f a).Throughout R) : (act >>= f).Throughout R := by
  intro k
  have hfirst := hact k
  cases h : act k with
  | error e k₁ =>
    rw [final_bind_of_error h]
    exact final_of_error h ▸ hfirst
  | ok a k₁ =>
    rw [final_of_ok h] at hfirst
    rw [final_bind_of_ok h]
    exact htrans hfirst (hf a k₁)

/-! ## Properties of steps -/

end Act

namespace Kernel

open Act

variable {hooks : Hooks C} {P : ∀ {α : Type}, Act C α → Prop} {body : C.Body → Act C Bool}
  {idle atHalt : Act C Unit}

/-- The processor waits on behalf of the current thread, and notes it. -/
theorem eq_of_halt {k k' : Kernel C} {u : Unit} (h : halt k = .ok u k') :
    ∃ id, k' = { k with cpu := Maskable.halt k.cpu, history := .halted id :: k.history } := by
  obtain ⟨id, _, h⟩ := inspect_bind_eq_ok_iff.mp h
  rw [modify_bind, record, modify_eq_ok_iff] at h
  exact ⟨id, h⟩

end Kernel
end RoundRobin
