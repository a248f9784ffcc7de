import RoundRobin.Kernel.Basic

/-!
# Operations that come back

An operation that comes back has come back at every one of its steps. The lemmas here take an
operation apart: for each primitive they say when it comes back, with what, and in which kernel. What
a step did is read off with `bind_eq_ok_iff` and the lemma of its primitive. A step that only looks
has a lemma for the two together. An operation that stops has stopped at one of its steps, and `final`
is the kernel in either case.
-/

namespace RoundRobin.Act

variable {C : Client} {α : Type} {k k' : Kernel C} {a : α}

/-! ## Whether an operation comes back or stops -/

/-- The kernel as an operation leaves it, whether it comes back or stops. -/
def final (act : Act C α) (k : Kernel C) : Kernel C :=
  match act k with
  | .ok _ k' => k'
  | .error _ k' => k'

theorem final_of_ok {act : Act C α} (h : act k = .ok a k') : act.final k = k' := by rw [final, h]

theorem final_of_error {act : Act C α} {e : Fault} (h : act k = .error e k') : act.final k = k' := by
  rw [final, h]

section Final

variable {β : Type} {act : Act C α} {f : α → Act C β}

/-- The first of two operations leads to where the second one starts, if it comes back. -/
theorem final_bind_of_ok (h : act k = .ok a k') : (act >>= f).final k = (f a).final k' := by
  unfold final
  rw [bind_of_ok h]

theorem final_bind_of_error {e : Fault} (h : act k = .error e k') : (act >>= f).final k = k' :=
  final_of_error (bind_of_error h)

/-- Of two operations the first one stops, or it comes back and the second one stops. -/
theorem bind_eq_error_iff {e : Fault} : (act >>= f) k = .error e k' ↔
    act k = .error e k' ∨ ∃ a k₁, act k = .ok a k₁ ∧ f a k₁ = .error e k' := by
  constructor
  · intro h
    cases hact : act k with
    | error e₁ k₁ => rw [bind_of_error hact] at h; cases h; exact .inl rfl
    | ok a k₁ => rw [bind_of_ok hact] at h; exact .inr ⟨a, k₁, rfl, h⟩
  · rintro (hact | ⟨a, k₁, hact, h⟩)
    · exact bind_of_error hact
    · exact (bind_of_ok hact).trans h

end Final

/-! ## Steps that always come back -/

section Binds

variable {β : Type}

theorem get_bind (f : Kernel C → Act C β) : ((get : Act C (Kernel C)) >>= f) k = f k k := rfl

theorem modify_bind (g : Kernel C → Kernel C) (f : Unit → Act C β) :
    ((modify g : Act C Unit) >>= f) k = f () (g k) := rfl

theorem modifyGet_bind (g : Kernel C → α × Kernel C) (f : α → Act C β) :
    ((modifyGet g : Act C α) >>= f) k = f (g k).1 (g k).2 := rfl

theorem record_bind (e : Event C.Note) (f : Unit → Act C β) :
    (record e >>= f) k = f () { k with history := e :: k.history } := rfl

theorem log_bind (m : LogMessage) (f : Unit → Act C β) :
    (log m >>= f) k = f () { k with history := .log m :: k.history } := rfl

theorem level_bind (f : Level → Act C β) :
    ((level : Act C Level) >>= f) k = f (Maskable.level k.cpu) k := rfl

theorem setLevel_bind (l : Level) (f : Unit → Act C β) :
    (setLevel l >>= f) k = f () { k with cpu := Maskable.setLevel l k.cpu } := rfl

end Binds

/-- Of the first step only what it does here matters. -/
theorem bind_eq_of_eq {β : Type} {act act' : Act C α} {f : α → Act C β} (h : act k = act' k) :
    (act >>= f) k = (act' >>= f) k := by
  change EStateM.bind act f k = EStateM.bind act' f k
  unfold EStateM.bind
  rw [h]

/-- Of the steps after the first one only what they do where it leads matters. -/
theorem bind_eq_bind {β : Type} {act : Act C α} {f g : α → Act C β}
    (h : ∀ a k', act k = .ok a k' → f a k' = g a k') : (act >>= f) k = (act >>= g) k := by
  cases hact : act k with
  | ok a k' => rw [bind_of_ok hact, bind_of_ok hact, h a k' hact]
  | error e k' => rw [bind_of_error hact, bind_of_error hact]

theorem pure_eq_ok_iff {b : α} : (pure b : Act C α) k = .ok a k' ↔ a = b ∧ k' = k := by
  change EStateM.Result.ok b k = .ok a k' ↔ _
  rw [EStateM.Result.ok.injEq]
  exact and_congr eq_comm eq_comm

/-- A result that is only put into another form. -/
theorem bind_pure_eq_ok_iff {β : Type} {act : Act C α} {f : α → β} {b : β} :
    (act >>= fun a => pure (f a)) k = .ok b k' ↔ ∃ a, act k = .ok a k' ∧ b = f a := by
  rw [bind_eq_ok_iff]
  refine exists_congr fun a => ?_
  constructor
  · rintro ⟨k₁, hact, h⟩
    obtain ⟨rfl, rfl⟩ := pure_eq_ok_iff.mp h
    exact ⟨hact, rfl⟩
  · rintro ⟨hact, rfl⟩
    exact ⟨k', hact, rfl⟩

theorem ok_of_bind_pure {β : Type} {act : Act C α} {f : α → β} {b : β}
    (h : (act >>= fun a => pure (f a)) k = .ok b k') : ∃ a, act k = .ok a k' := by
  obtain ⟨a, hact, _⟩ := bind_pure_eq_ok_iff.mp h
  exact ⟨a, hact⟩

theorem modify_eq_ok_iff {f : Kernel C → Kernel C} {u : Unit} :
    (modify f : Act C Unit) k = .ok u k' ↔ k' = f k := by
  change EStateM.Result.ok () (f k) = .ok u k' ↔ _
  simp [eq_comm]

theorem orFault_eq_ok_iff {r : Except Fault α} :
    orFault r k = .ok a k' ↔ r = .ok a ∧ k = k' := by
  cases r with
  | error f => simp [orFault]
  | ok b => simp [orFault]

theorem inspect_eq_ok_iff {f : Tables C.Body → Except Fault α} :
    inspect f k = .ok a k' ↔ f k.tables = .ok a ∧ k = k' :=
  orFault_eq_ok_iff

/-! ## Checks -/

theorem requireMasked_eq_ok_iff {f : Fault} {u : Unit} :
    requireMasked f k = .ok u k' ↔ Maskable.level k.cpu = .off ∧ k = k' := by
  rw [requireMasked_apply]
  cases Maskable.level k.cpu <;> simp

theorem requireUnmasked_eq_ok_iff {f : Fault} {u : Unit} :
    requireUnmasked f k = .ok u k' ↔ Maskable.level k.cpu = .on ∧ k = k' := by
  rw [requireUnmasked_apply]
  cases Maskable.level k.cpu <;> simp

theorem requireThreadContext_eq_ok_iff {f : Fault} {u : Unit} :
    requireThreadContext f k = .ok u k' ↔ k.inInterrupt = false ∧ k = k' := by
  rw [requireThreadContext_apply]
  cases k.inInterrupt <;> simp

section Final

variable (e : Fault) (k : Kernel C)

theorem final_requireMasked : (requireMasked e : Act C Unit).final k = k := by
  unfold final
  rw [requireMasked_apply]
  cases Maskable.level k.cpu with
  | on => rfl
  | off => rfl

theorem final_requireUnmasked : (requireUnmasked e : Act C Unit).final k = k := by
  unfold final
  rw [requireUnmasked_apply]
  cases Maskable.level k.cpu with
  | on => rfl
  | off => rfl

theorem final_requireThreadContext : (requireThreadContext e : Act C Unit).final k = k := by
  unfold final
  rw [requireThreadContext_apply]
  cases k.inInterrupt with
  | true => rfl
  | false => rfl

end Final

/-! ## Steps that only look

What follows such a step starts in the kernel that the step started in.
-/

section Looks

variable {β : Type} {b : β}

theorem bind_eq_ok_iff_of_looks {act : Act C α} {f : α → Act C β} {P : α → Prop}
    (hlooks : ∀ a k', act k = .ok a k' ↔ P a ∧ k = k') :
    (act >>= f) k = .ok b k' ↔ ∃ a, P a ∧ f a k = .ok b k' := by
  rw [bind_eq_ok_iff]
  constructor
  · rintro ⟨a, k₁, hact, h⟩
    obtain ⟨ha, rfl⟩ := (hlooks a k₁).mp hact
    exact ⟨a, ha, h⟩
  · rintro ⟨a, ha, h⟩
    exact ⟨a, k, (hlooks a k).mpr ⟨ha, rfl⟩, h⟩

/-- A check looks, and hands nothing on. -/
theorem bind_eq_ok_iff_of_checks {check : Act C Unit} {f : Unit → Act C β} {p : Prop}
    (hchecks : ∀ u k', check k = .ok u k' ↔ p ∧ k = k') :
    (check >>= f) k = .ok b k' ↔ p ∧ f () k = .ok b k' := by
  rw [bind_eq_ok_iff_of_looks hchecks]
  exact ⟨fun ⟨_, h⟩ => h, fun h => ⟨(), h⟩⟩

theorem orFault_bind_eq_ok_iff {r : Except Fault α} {f : α → Act C β} :
    (orFault r >>= f) k = .ok b k' ↔ ∃ a, r = .ok a ∧ f a k = .ok b k' :=
  bind_eq_ok_iff_of_looks fun _ _ => orFault_eq_ok_iff

theorem inspect_bind_eq_ok_iff {g : Tables C.Body → Except Fault α} {f : α → Act C β} :
    (inspect g >>= f) k = .ok b k' ↔ ∃ a, g k.tables = .ok a ∧ f a k = .ok b k' :=
  bind_eq_ok_iff_of_looks fun _ _ => inspect_eq_ok_iff

theorem requireMasked_bind_eq_ok_iff {e : Fault} {f : Unit → Act C β} :
    (requireMasked e >>= f) k = .ok b k' ↔
      Maskable.level k.cpu = .off ∧ f () k = .ok b k' :=
  bind_eq_ok_iff_of_checks fun _ _ => requireMasked_eq_ok_iff

theorem requireUnmasked_bind_eq_ok_iff {e : Fault} {f : Unit → Act C β} :
    (requireUnmasked e >>= f) k = .ok b k' ↔
      Maskable.level k.cpu = .on ∧ f () k = .ok b k' :=
  bind_eq_ok_iff_of_checks fun _ _ => requireUnmasked_eq_ok_iff

theorem requireThreadContext_bind_eq_ok_iff {e : Fault} {f : Unit → Act C β} :
    (requireThreadContext e >>= f) k = .ok b k' ↔
      k.inInterrupt = false ∧ f () k = .ok b k' :=
  bind_eq_ok_iff_of_checks fun _ _ => requireThreadContext_eq_ok_iff

end Looks

/-! ## Critical sections -/

theorem masked_eq_ok_iff {act : Act C α} :
    masked act k = .ok a k' ↔ ∃ k₁, act { k with cpu := Maskable.setLevel .off k.cpu } = .ok a k₁ ∧
      k' = { k₁ with cpu := Maskable.setLevel (Maskable.level k.cpu) k₁.cpu } := by
  unfold masked
  rw [level_bind, setLevel_bind, bind_eq_ok_iff]
  simp only [setLevel_bind, pure_eq_ok_iff]
  constructor
  · rintro ⟨_, k₁, h, rfl, rfl⟩; exact ⟨k₁, h, rfl⟩
  · rintro ⟨k₁, h, rfl⟩; exact ⟨a, k₁, h, rfl, rfl⟩

theorem update_eq_ok_iff {f : Tables C.Body → Except Fault (α × Tables C.Body)} :
    update f k = .ok a k' ↔ ∃ t, f k.tables = .ok (a, t) ∧
      k' = { k with tables := t, history := .updated (Maskable.level k.cpu) :: k.history } := by
  unfold update
  cases f k.tables with
  | error e => simp
  | ok r =>
    obtain ⟨b, t⟩ := r
    simp only [EStateM.Result.ok.injEq, Except.ok.injEq, Prod.mk.injEq]
    constructor
    · rintro ⟨rfl, rfl⟩; exact ⟨t, ⟨rfl, rfl⟩, rfl⟩
    · rintro ⟨_, ⟨rfl, rfl⟩, rfl⟩; exact ⟨rfl, rfl⟩

/-- A section without a result of its own. -/
theorem eq_ok_of_map_unit {τ : Type} {r : Except Fault τ} {u : Unit} {t : τ}
    (h : r.map (((), ·) : τ → Unit × τ) = .ok (u, t)) : r = .ok t := by
  cases r with
  | error e => cases h
  | ok t' => cases h; rfl

theorem change_eq_ok_iff {f : Tables C.Body → Except Fault (Tables C.Body)} {u : Unit} :
    change f k = .ok u k' ↔ ∃ t, f k.tables = .ok t ∧
      k' = { k with tables := t, history := .updated (Maskable.level k.cpu) :: k.history } := by
  unfold change
  rw [update_eq_ok_iff]
  refine exists_congr fun t => and_congr_left fun _ => ?_
  cases f k.tables <;> simp [Except.map]

/-- A switch needs interrupts masked, and is counted. -/
theorem switchContext_eq_ok_iff {u : Unit} :
    switchContext k = .ok u k' ↔ k.cpu.delivering = false ∧ k.cpu.switches ≠ Word.top ∧
      k' = { k with
        cpu := { k.cpu with switches := k.cpu.switches + 1 }
        history := .switched .off :: k.history } := by
  unfold switchContext FlagCpu.switch
  by_cases hon : k.cpu.delivering = true
  · simp [hon]
  · by_cases htop : k.cpu.switches = Word.top
    · simp [hon, htop]
    · have hlevel : ∀ n, Maskable.level ({ k.cpu with switches := n } : FlagCpu) = .off := by
        intro n
        simp [Maskable.level, Maskable.enabled, Level.ofBool, hon]
      simp only [if_neg hon, if_neg htop, hlevel, EStateM.Result.ok.injEq, true_and]
      constructor
      · intro h; exact ⟨by simpa using hon, htop, h.symm⟩
      · rintro ⟨_, _, h⟩; exact h.symm

end RoundRobin.Act
