import RoundRobin.Proofs.Kernel.Run
import RoundRobin.Proofs.Tables.Tick

/-!
# The core of a kernel

The core is what the scheduler keeps: its tables, its counts and its flags, with how many threads it
made and which decisions it took. Interrupt levels, the log and the client are not part of it. Here is
what each call may do to the core (`Core.Effect`). What every effect preserves holds after every run,
and `Core.Kept` says which few steps there are to look at.
-/

namespace RoundRobin

/-- What the scheduler keeps. -/
structure Core (C : Client) where
  config : Config
  image : Image
  ticks : Nat
  tables : Tables C.Body
  nextId : ThreadId
  /-- Switches that the processor carried out. -/
  switches : Nat
  initialized : Bool
  started : Bool
  inInterrupt : Bool
  yieldOnReturn : Bool
  /-- How many threads were made, apart from the one that booted. -/
  spawns : Nat
  /-- The decisions so far, the last one first. -/
  decisions : List Dispatch

variable {C : Client}

def Kernel.core (k : Kernel C) : Core C where
  config := k.config
  image := k.image
  ticks := k.clock.ticks
  tables := k.tables
  nextId := k.nextId
  switches := k.cpu.switches
  initialized := k.initialized
  started := k.started
  inInterrupt := k.inInterrupt
  yieldOnReturn := k.yieldOnReturn
  spawns := k.spawns
  decisions := k.decisions

/-- Whether a call is a timer interrupt. -/
def Call.isTimer {β : Type} : Call β → Bool
  | timerInterrupt => true
  | onTimerInterrupt => true
  | _ => false

/-- Whether a call is an interrupt of an initialized kernel, which is charged to somebody. -/
def Kernel.charges (k : Kernel C) (c : Call C.Body) : Bool := c.isTimer && k.initialized

/-- A thread may leave in this way in this call. Nobody blocks or exits but by the call that is for it. -/
structure Way.TakenBy {β : Type} (way : Way) (c : Call β) : Prop where
  blocks : way = .block → c = .block
  exits : way = .exit → c = .exit

namespace Core

/-! ## Steps -/

/-- One tick later. -/
def later (s : Core C) : Core C := { s with ticks := s.ticks + 1 }

/-- The running code became the thread that booted. -/
def adopted (s : Core C) : Core C :=
  { s with
    initialized := true
    nextId := s.nextId.next
    tables := { s.tables.insertThread
        { Thread.fresh s.nextId Kernel.bootName Priority.standard none with status := .running } with
      current := some s.nextId
      boot := some s.nextId } }

/-- A thread was made on a page of its own. -/
def hired (name : String) (priority : Nat) (entry : Entry C.Body) (page : Page) (pool : PagePool)
    (s : Core C) : Core C :=
  { s with
    nextId := s.nextId.next
    spawns := s.spawns + 1
    tables := { s.tables with pool }.insertThread
      (Kernel.freshThread s.image s.nextId name priority page entry) }

/-- A thread became the idle thread. -/
def appointed (id : ThreadId) (s : Core C) : Core C :=
  { s with started := true, tables := { s.tables with idle := some id } }

/-- The current thread left, and a decision was made. -/
def left (d : Dispatch) (t : Tables C.Body) (s : Core C) : Core C :=
  { s with
    tables := t
    switches := if d.previous = d.next then s.switches else s.switches + 1
    decisions := d :: s.decisions }

/-- A tick passed on an initialized kernel. -/
def ticked (asks : Bool) (t : Tables C.Body) (s : Core C) : Core C :=
  { s.later with tables := t, yieldOnReturn := s.yieldOnReturn || asks }

/-- The yield that was asked for is about to be carried out. -/
def answered (s : Core C) : Core C := { s with yieldOnReturn := false }

/-- What the timer's handler does. -/
inductive Ticked (s : Core C) : Core C → Prop where
  | early (fresh : s.initialized = false) : Ticked s s.later
  | full {user asks : Bool} {t : Tables C.Body} (up : s.initialized = true)
      (tick : s.tables.tick user (s.ticks + 1) s.config.timeSlice = .ok (asks, t)) :
      Ticked s (s.ticked asks t)

/-! ## Effects -/

/-- What a call may do. -/
inductive Effect (s : Core C) : Call C.Body → Core C → Prop where
  /-- It failed, or it is about something else. -/
  | nothing {c : Call C.Body} (other : c.isTimer = false) : Effect s c s
  | advance (room : s.ticks ≠ Word.top) : Effect s .advanceClock s.later
  | adopt (fresh : s.initialized = false) : Effect s .init s.adopted
  | start {page : Page} {pool : PagePool} (up : s.initialized = true) (first : s.started = false)
      (allocate : s.tables.pool.allocate = some (page, pool)) :
      Effect s .start
        ((s.hired Kernel.idleName Priority.lowest .idleLoop page pool).appointed s.nextId)
  | create {name : String} {priority : Nat} {body : C.Body} {page : Page} {pool : PagePool}
      {t : Tables C.Body} (up : s.initialized = true) (valid : priority ≤ Priority.highest)
      (allocate : s.tables.pool.allocate = some (page, pool))
      (unblock : (s.hired name priority (.body body) page pool).tables.unblock s.nextId = .ok t) :
      Effect s (.create name priority body)
        { s.hired name priority (.body body) page pool with tables := t }
  | unblock {id : ThreadId} {t : Tables C.Body} (unblock : s.tables.unblock id = .ok t) :
      Effect s (.unblock id) { s with tables := t }
  | leave {c : Call C.Body} {way : Way} {d : Dispatch} {t : Tables C.Body} (other : c.isTimer = false)
      (leave : s.tables.leave way = .ok (d, t)) (taken : way.TakenBy c) : Effect s c (s.left d t)
  | prioritize {priority : Nat} {id : ThreadId} (current : s.tables.current = some id) :
      Effect s (.setPriority priority)
        { s with
          tables := s.tables.modifyThread id fun th =>
            { th with priority := Priority.clamp priority } }
  /-- The handler alone. -/
  | timerInterrupt {s' : Core C} (room : s.ticks ≠ Word.top) (outside : s.inInterrupt = false)
      (ticked : Ticked s s') : Effect s .timerInterrupt s'
  /-- The handler, which asked for nothing. -/
  | tick {s' : Core C} (room : s.ticks ≠ Word.top) (outside : s.inInterrupt = false)
      (ticked : Ticked s s') (calm : s'.yieldOnReturn = false) : Effect s .onTimerInterrupt s'
  /-- The handler, and the yield that it asked for. -/
  | preempt {s' : Core C} {d : Dispatch} {t : Tables C.Body} (room : s.ticks ≠ Word.top)
      (outside : s.inInterrupt = false) (ticked : Ticked s s') (asked : s'.yieldOnReturn = true)
      (leave : s'.tables.leave .yield = .ok (d, t)) : Effect s .onTimerInterrupt (s'.answered.left d t)

/-! ## What every step preserves -/

/-- A property of cores that every step of a call preserves, as long as threads leave only in ways
that they may. -/
structure KeptUnder (may : Core C → Way → Prop) (P : Core C → Prop) : Prop where
  later : ∀ {s : Core C}, P s → s.ticks ≠ Word.top → P s.later
  adopted : ∀ {s : Core C}, P s → s.initialized = false → P s.adopted
  hired : ∀ {s : Core C} {name : String} {priority : Nat} {entry : Entry C.Body} {page : Page}
    {pool : PagePool}, P s → s.initialized = true → s.tables.pool.allocate = some (page, pool) →
    P (s.hired name priority entry page pool)
  /-- The thread that is appointed was hired just now. -/
  appointed : ∀ {s : Core C} {name : String} {priority : Nat} {entry : Entry C.Body} {page : Page}
    {pool : PagePool}, P s → s.initialized = true → s.started = false →
    s.tables.pool.allocate = some (page, pool) →
    P ((s.hired name priority entry page pool).appointed s.nextId)
  unblocked : ∀ {s : Core C} {id : ThreadId} {t : Tables C.Body}, P s →
    s.tables.unblock id = .ok t → P { s with tables := t }
  left : ∀ {s : Core C} {way : Way} {d : Dispatch} {t : Tables C.Body}, P s → may s way →
    s.tables.leave way = .ok (d, t) → P (s.left d t)
  prioritized : ∀ {s : Core C} {id : ThreadId} {priority : Nat}, P s →
    s.tables.current = some id →
    P { s with tables := s.tables.modifyThread id fun th => { th with priority } }
  ticked : ∀ {s : Core C} {user asks : Bool} {t : Tables C.Body}, P s → s.initialized = true →
    s.ticks ≠ Word.top → s.tables.tick user (s.ticks + 1) s.config.timeSlice = .ok (asks, t) →
    P (s.ticked asks t)
  preempted : ∀ {s : Core C} {d : Dispatch} {t : Tables C.Body}, P s →
    s.tables.leave .yield = .ok (d, t) → P (s.answered.left d t)

/-- Threads may leave in any way. -/
def anyWay (_ : Core C) (_ : Way) : Prop := True

/-- A property of cores that every step of a call preserves. -/
abbrev Kept (P : Core C → Prop) : Prop := KeptUnder anyWay P

variable {may : Core C → Way → Prop} {P : Core C → Prop} {s s' : Core C} {c : Call C.Body}

theorem KeptUnder.handler (h : KeptUnder may P) (hs : P s) (hroom : s.ticks ≠ Word.top)
    (ht : Ticked s s') : P s' := by
  cases ht with
  | early => exact h.later hs hroom
  | full hup ht => exact h.ticked hs hup hroom ht

/-- What every step preserves every call preserves. -/
theorem KeptUnder.effect_of_may (h : KeptUnder may P) (hs : P s)
    (hmay : ∀ way, way.TakenBy c → may s way) (he : Effect s c s') : P s' := by
  cases he with
  | nothing => exact hs
  | advance hroom => exact h.later hs hroom
  | adopt hfresh => exact h.adopted hs hfresh
  | start hup hfirst hpool => exact h.appointed hs hup hfirst hpool
  | create hup _ hpool hunblock => exact h.unblocked (h.hired hs hup hpool) hunblock
  | unblock hunblock => exact h.unblocked hs hunblock
  | leave _ hleave htaken => exact h.left hs (hmay _ htaken) hleave
  | prioritize hc => exact h.prioritized hs hc
  | timerInterrupt hroom _ ht => exact h.handler hs hroom ht
  | tick hroom _ ht => exact h.handler hs hroom ht
  | preempt hroom _ ht _ hleave => exact h.preempted (h.handler hs hroom ht) hleave

theorem Kept.effect (h : Kept P) (hs : P s) (he : Effect s c s') : P s' :=
  h.effect_of_may hs (fun _ _ => trivial) he

end Core

/-! ## New kernels -/

/-- A kernel that was assembled for a configuration, spelled out. -/
theorem Kernel.eq_of_ofConfig {config : Config} {client : C.State} {k : Kernel C}
    (h : Kernel.ofConfig config client = .ok k) :
    config.validate = .ok () ∧ config.maxThreads + 1 ≤ Word.top ∧
      k = {
        config
        client
        clock := { frequency := config.timerHz }
        tables := {
          ready := .empty (config.maxThreads + 1)
          pool := { pageSize := config.pageSize, capacity := config.maxThreads } } } := by
  unfold Kernel.ofConfig at h
  split at h
  · cases h
  · next hvalid =>
    split at h
    · cases h
    · next hassemble =>
      cases h
      unfold Kernel.assemble Kernel.reserveSlots Clock.ofFrequency PagePool.ofCapacity at hassemble
      simp only [Fault.bind_eq_ok_iff, checkedAdd_eq_ok_iff, Fault.pure_eq_ok_iff] at hassemble
      obtain ⟨slots, ⟨_, ⟨hslots, rfl⟩, _, _, _, _, _, _, rfl⟩, clock, hclock, pool, ⟨_, _, rfl⟩, rfl⟩
        := hassemble
      split at hclock
      · cases hclock
      · cases hclock
        exact ⟨hvalid, hslots, rfl⟩

end RoundRobin
