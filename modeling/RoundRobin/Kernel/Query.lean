import RoundRobin.Kernel.Basic

/-!
# Questions to a kernel

None of them changes anything. Here is first what each of them is about, and then how a caller asks:
what is in the tables is read with interrupts masked.
-/

namespace RoundRobin.Kernel

variable {C : Client} {α : Type}

/-- Ticks since the kernel was assembled. -/
def now (k : Kernel C) : Nat := k.clock.ticks

/-- The running thread's control block. -/
def currentThread (k : Kernel C) : Except Fault (Thread C.Body) := do
  k.tables.thread (← k.tables.currentId)

/-- The running thread, after a check that it is sound. -/
def currentHandle (k : Kernel C) : Except Fault Handle := do
  if k.initialized = false then
    throw .notInitialized
  else
    let th ← k.currentThread
    if th.isIntact = false then
      throw (.corrupted th.id)
    else if th.status ≠ .running then
      throw .currentNotRunning
    else
      return th.handle

def priority (k : Kernel C) : Except Fault Nat := do return (← k.currentThread).priority

def statusOf (k : Kernel C) (id : ThreadId) : Option Status :=
  (k.tables.threads.find? id).map (·.status)

def handleOf (k : Kernel C) (id : ThreadId) : Option Handle :=
  (k.tables.threads.find? id).map (·.handle)

/-- The earliest wake tick, if anybody sleeps. -/
def nextWake (k : Kernel C) : Option Nat :=
  if k.tables.sleepers.isEmpty then none else some k.tables.sleepers.nextWake

/-- Threads that died and whose pages are not free yet. -/
def pendingReclaim (k : Kernel C) : Nat := k.tables.reclaim.length

/-- The status of every thread there ever was, by id. -/
def statuses (k : Kernel C) : List (Option Status) :=
  (ThreadId.firstIds (k.nextId.val - 1) .first).map k.statusOf

/-! ## Asking -/

/-- What a caller may ask, by the type of the answer. -/
inductive Question : Type → Type where
  | now : Question Nat
  | elapsed (since : Nat) : Question Nat
  | inInterrupt : Question Bool
  | currentThread : Question Handle
  | currentId : Question ThreadId
  | priority : Question Nat
  | statusOf (id : ThreadId) : Question (Option Status)
  | handleOf (id : ThreadId) : Question (Option Handle)
  | readyIds : Question (List ThreadId)
  | sleeping : Question (List Sleeper)
  | threadCounts : Question ThreadCounts
  | idleId : Question (Option ThreadId)
  | pageStats : Question PoolStats
  | pendingReclaim : Question Nat
  | contextSwitches : Question Nat
  | stats : Question TickStats
  | nextWake : Question (Option Nat)
  | config : Question Config

/-- Looks at the kernel. -/
def look (f : Kernel C → Except Fault α) : Act C α := do Act.orFault (f (← get))

/-- Looks at the kernel with interrupts masked. -/
def lookMasked (f : Kernel C → Except Fault α) : Act C α := Act.masked (look f)

/-- Looks at the running thread, of which there is one once the kernel is initialized. -/
def lookAtCurrent : Act C Handle := do
  if (← get).initialized = false then
    throw .notInitialized
  else
    lookMasked currentHandle

/-- Answers a question. -/
def ask : Question α → Act C α
  | .now => lookMasked fun k => .ok k.now
  | .elapsed since => lookMasked fun k => .ok (k.clock.elapsed since)
  | .inInterrupt => look fun k => .ok k.inInterrupt
  | .currentThread => lookAtCurrent
  | .currentId => lookMasked fun k => k.tables.currentId
  | .priority => lookMasked priority
  | .statusOf id => lookMasked fun k => .ok (k.statusOf id)
  | .handleOf id => lookMasked fun k => .ok (k.handleOf id)
  | .readyIds => lookMasked fun k => .ok k.tables.ready.ids
  | .sleeping => lookMasked fun k => .ok k.tables.sleepers.sleepers
  | .threadCounts => lookMasked fun k => .ok k.tables.threads.counts
  | .idleId => lookMasked fun k => .ok k.tables.idle
  | .pageStats => look fun k => .ok k.tables.pool.stats
  | .pendingReclaim => lookMasked fun k => .ok k.pendingReclaim
  | .contextSwitches => lookMasked fun k => .ok k.tables.switches
  | .stats => lookMasked fun k => .ok k.tables.stats
  | .nextWake => lookMasked fun k => .ok k.nextWake
  | .config => look fun k => .ok k.config

/-! ## Reports -/

/-- Logs where the ticks went. -/
def dumpStats : Act C Unit := do Act.log (.tickStats (← get).tables.stats)

/-- Logs the tick count. -/
def timerStats : Act C Unit := do Act.log (.tickCount (← get).clock.ticks)

/-- Sets the running thread's priority, or the nearest one in range. -/
def setPriority (priority : Nat) : Act C Unit := Act.masked (Act.change fun t => do
  let id ← t.currentId
  let _ ← t.thread id
  return t.modifyThread id fun th => { th with priority := Priority.clamp priority })

end RoundRobin.Kernel
