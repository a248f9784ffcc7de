import RoundRobin.Clock.Counter
import RoundRobin.Cpu.Flag
import RoundRobin.Kernel.Event
import RoundRobin.Kernel.Tables

/-!
# Kernels

The state of a kernel, and the few primitives from which its operations are made. An operation is an
`Act`: it changes the kernel and ends with a result or a fault, and the kernel as the fault left it
can still be looked at. The tables are changed by `update` alone, which notes the interrupt level in
the history.
-/

namespace RoundRobin

/-- What runs on a kernel, as far as the kernel must know: the code of threads, a state of its own,
and what it notes in the history. -/
structure Client where
  Body : Type
  State : Type
  Note : Type

/-- Where the loaded kernel lies in memory. -/
structure Image where
  /-- The first code of every thread. -/
  trampoline : Nat := 0x1000
  /-- The scheduler, which a new thread is given as its argument. -/
  scheduler : Nat := 0x8000
deriving DecidableEq, Repr

/-- A kernel on one processor. -/
structure Kernel (C : Client) where
  config : Config
  clock : Clock
  tables : Tables C.Body
  nextId : ThreadId := .first
  cpu : FlagCpu := {}
  initialized : Bool := false
  started : Bool := false
  /-- Set while the timer's handler runs. -/
  inInterrupt : Bool := false
  /-- The handler asks for a yield once it is over. -/
  yieldOnReturn : Bool := false
  /-- Set once a process layer is installed. -/
  hooked : Bool := false
  image : Image := {}
  /-- What happened, the last thing first. -/
  history : List (Event C.Note) := []
  client : C.State

/-- An operation on a kernel. -/
abbrev Act (C : Client) : Type → Type := EStateM Fault (Kernel C)

namespace Act

variable {C : Client} {α : Type}

/-! ## Primitives -/

/-- The result of a step that changes nothing. -/
def orFault (r : Except Fault α) : Act C α := fun k =>
  match r with
  | .ok a => .ok a k
  | .error f => .error f k

/-- Runs an operation and gives its fault, if it has one, as a result. -/
def attempt (act : Act C α) : Act C (Except Fault α) := fun k =>
  match act k with
  | .ok a k => .ok (.ok a) k
  | .error f k => .ok (.error f) k

/-- Adds to the history. -/
def record (e : Event C.Note) : Act C Unit :=
  modify fun k => { k with history := e :: k.history }

def log (m : LogMessage) : Act C Unit := record (.log m)

/-- The interrupt level. -/
def level : Act C Level := return Maskable.level (← get).cpu

def setLevel (l : Level) : Act C Unit :=
  modify fun k => { k with cpu := Maskable.setLevel l k.cpu }

/-- Stops with a fault unless interrupts are masked. -/
def requireMasked (f : Fault) : Act C Unit := do
  if (← level) = .on then throw f

/-- Stops with a fault unless interrupts are delivered. -/
def requireUnmasked (f : Fault) : Act C Unit := do
  if (← level) = .off then throw f

/-- Stops with a fault while the timer's handler runs. -/
def requireThreadContext (f : Fault) : Act C Unit := do
  if (← get).inInterrupt then throw f

/-- Runs an operation with interrupts masked and sets the level back to what it was. -/
def masked (act : Act C α) : Act C α := do
  let old ← level
  setLevel .off
  let a ← act
  setLevel old
  return a

/-- Runs a critical section. -/
def update (f : Tables C.Body → Except Fault (α × Tables C.Body)) : Act C α := fun k =>
  match f k.tables with
  | .ok (a, tables) =>
    .ok a { k with tables, history := .updated (Maskable.level k.cpu) :: k.history }
  | .error f => .error f k

/-- Runs a critical section that has no result of its own. -/
def change (f : Tables C.Body → Except Fault (Tables C.Body)) : Act C Unit :=
  update fun t => (f t).map ((), ·)

/-- Looks at the tables. -/
def inspect (f : Tables C.Body → Except Fault α) : Act C α := do
  orFault (f (← get).tables)

/-- The processor goes over to another context. -/
def switchContext : Act C Unit := fun k =>
  match k.cpu.switch with
  | .ok cpu => .ok () { k with cpu, history := .switched (Maskable.level cpu) :: k.history }
  | .error f => .error f k

/-- The processor waits for an interrupt, on behalf of the current thread. -/
def halt : Act C Unit := do
  let id ← inspect Tables.currentId
  modify fun k => { k with cpu := Maskable.halt k.cpu }
  record (.halted id)

/-! ## What the primitives do -/

theorem bind_eq_ok_iff {β : Type} {act : Act C α} {f : α → Act C β} {k k'' : Kernel C} {b : β} :
    (act >>= f) k = .ok b k'' ↔ ∃ a k', act k = .ok a k' ∧ f a k' = .ok b k'' := by
  change EStateM.bind act f k = _ ↔ _
  unfold EStateM.bind
  cases act k with
  | ok a k' =>
    constructor
    · intro h; exact ⟨a, k', rfl, h⟩
    · rintro ⟨a', k₁, h₁, h₂⟩; cases h₁; exact h₂
  | error e k' =>
    constructor
    · intro h; cases h
    · rintro ⟨a', k₁, h₁, h₂⟩; cases h₁

theorem bind_of_ok {β : Type} {act : Act C α} {f : α → Act C β} {k k' : Kernel C} {a : α}
    (h : act k = .ok a k') : (act >>= f) k = f a k' := by
  change EStateM.bind act f k = _
  simp only [EStateM.bind, h]

theorem bind_of_error {β : Type} {act : Act C α} {f : α → Act C β} {k k' : Kernel C} {e : Fault}
    (h : act k = .error e k') : (act >>= f) k = .error e k' := by
  change EStateM.bind act f k = _
  simp only [EStateM.bind, h]

@[simp] theorem level_apply (k : Kernel C) :
    (level : Act C Level) k = .ok (Maskable.level k.cpu) k := rfl

@[simp] theorem setLevel_apply (l : Level) (k : Kernel C) :
    (setLevel l : Act C Unit) k = .ok () { k with cpu := Maskable.setLevel l k.cpu } := rfl

@[simp] theorem record_apply (e : Event C.Note) (k : Kernel C) :
    record e k = .ok () { k with history := e :: k.history } := rfl

@[simp] theorem orFault_ok (a : α) (k : Kernel C) : orFault (.ok a) k = .ok a k := rfl

@[simp] theorem orFault_error (f : Fault) (k : Kernel C) :
    (orFault (.error f) : Act C α) k = .error f k := rfl

theorem requireMasked_apply (f : Fault) (k : Kernel C) :
    requireMasked f k = if Maskable.level k.cpu = .on then .error f k else .ok () k := by
  unfold requireMasked
  rw [bind_of_ok (level_apply k)]
  split <;> rfl

theorem requireUnmasked_apply (f : Fault) (k : Kernel C) :
    requireUnmasked f k = if Maskable.level k.cpu = .off then .error f k else .ok () k := by
  unfold requireUnmasked
  rw [bind_of_ok (level_apply k)]
  split <;> rfl

theorem requireThreadContext_apply (f : Fault) (k : Kernel C) :
    requireThreadContext f k = if k.inInterrupt then .error f k else .ok () k := by
  unfold requireThreadContext
  rw [bind_of_ok (show (get : Act C (Kernel C)) k = .ok k k from rfl)]
  split <;> rfl

theorem masked_of_ok {act : Act C α} {k k' : Kernel C} {a : α}
    (h : act { k with cpu := Maskable.setLevel .off k.cpu } = .ok a k') :
    masked act k = .ok a { k' with cpu := Maskable.setLevel (Maskable.level k.cpu) k'.cpu } := by
  unfold masked
  rw [bind_of_ok (level_apply k), bind_of_ok (setLevel_apply .off k), bind_of_ok h]
  rfl

theorem masked_of_error {act : Act C α} {k k' : Kernel C} {e : Fault}
    (h : act { k with cpu := Maskable.setLevel .off k.cpu } = .error e k') :
    masked act k = .error e k' := by
  unfold masked
  rw [bind_of_ok (level_apply k), bind_of_ok (setLevel_apply .off k), bind_of_error h]

theorem update_of_ok {f : Tables C.Body → Except Fault (α × Tables C.Body)} {k : Kernel C} {a : α}
    {t : Tables C.Body} (h : f k.tables = .ok (a, t)) :
    update f k
      = .ok a { k with tables := t, history := .updated (Maskable.level k.cpu) :: k.history } := by
  simp only [update, h]

theorem update_of_error {f : Tables C.Body → Except Fault (α × Tables C.Body)} {k : Kernel C}
    {e : Fault} (h : f k.tables = .error e) : update f k = .error e k := by
  simp only [update, h]

end Act
end RoundRobin
