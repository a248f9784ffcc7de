import RoundRobin.Page.Pool
import RoundRobin.Ready
import RoundRobin.Sleep
import RoundRobin.Thread.Table

/-!
# The scheduler's tables

Everything that is changed only with interrupts masked: the threads, the containers that hold their
ids, the pages, and who runs. The operations here are the critical sections of the kernel. Each takes
the tables and gives either the tables after it or the fault that stopped it.
-/

namespace RoundRobin

/-- What the scheduler knows of its threads. -/
structure Tables (β : Type) where
  threads : ThreadTable β := .empty
  ready : ReadyQueue
  sleepers : SleepRegistry := .empty
  /-- Threads that died and whose pages the next decision frees, the last one first. -/
  reclaim : List ThreadId := []
  pool : PagePool
  current : Option ThreadId := none
  idle : Option ThreadId := none
  /-- The thread that booted. -/
  boot : Option ThreadId := none
  /-- Ticks the current thread has run since it was dispatched. -/
  sliceTicks : Nat := 0
  stats : TickStats := {}
  /-- Switches between two different threads. -/
  switches : Nat := 0

namespace Tables

variable {β : Type}

/-! ## Access -/

/-- The thread of an id, which has to live. -/
def thread (t : Tables β) (id : ThreadId) : Except Fault (Thread β) :=
  match t.threads.find? id with
  | some th => .ok th
  | none => .error (.noThread id)

/-- The thread that runs; there is none before the kernel is initialized. -/
def currentId (t : Tables β) : Except Fault ThreadId :=
  match t.current with
  | some id => .ok id
  | none => .error .notInitialized

def isIdle (t : Tables β) (id : ThreadId) : Bool := t.idle == some id

/-- The tables with one thread changed. -/
def modifyThread (t : Tables β) (id : ThreadId) (f : Thread β → Thread β) : Tables β :=
  { t with threads := t.threads.modify id f }

def insertThread (t : Tables β) (th : Thread β) : Tables β :=
  { t with threads := t.threads.insert th }

/-- The tables with an id at the tail of the ready queue. -/
def pushReady (t : Tables β) (id : ThreadId) : Except Fault (Tables β) := do
  return { t with ready := ← t.ready.push id }

/-! ## Becoming ready -/

/-- Makes a blocked thread ready. The idle thread is never queued: it is what runs when the queue is
empty. -/
def makeReady (t : Tables β) (id : ThreadId) : Except Fault (Tables β) := do
  let th ← t.thread id
  if th.status ≠ .blocked then
    throw (.readiedNotBlocked id)
  else if t.isIdle id then
    return t.modifyThread id fun th => { th with status := .ready, link := .unlinked }
  else
    (t.modifyThread id fun th => { th with status := .ready, link := .ready }).pushReady id

/-- Makes a thread ready that is blocked and does not sleep. -/
def unblock (id : ThreadId) (t : Tables β) : Except Fault (Tables β) := do
  let th ← t.thread id
  if th.isIntact = false then
    throw (.unblockCorrupted id)
  else if th.status ≠ .blocked then
    throw (.unblockNotBlocked id)
  else if th.link ≠ .unlinked then
    throw (.unblockSleeping id)
  else
    t.makeReady id

/-- Makes threads ready, in order. -/
def makeAllReady : List ThreadId → Tables β → Except Fault (Tables β)
  | [], t => .ok t
  | id :: rest, t => do makeAllReady rest (← t.makeReady id)

/-- Readies the sleepers whose tick has come, and counts them. -/
def wakeDue (now : Nat) (t : Tables β) : Except Fault (Nat × Tables β) :=
  if t.sleepers.due now then do
    let (woken, sleepers) := t.sleepers.wake now
    return (woken.length, ← makeAllReady woken { t with sleepers })
  else
    return (0, t)

/-! ## Waiting -/

/-- Queues the current thread again, unless it is the idle thread. -/
def requeueCurrent (t : Tables β) : Except Fault (Tables β) := do
  let id ← t.currentId
  if t.isIdle id then
    return t
  else
    let _ ← t.thread id
    (t.modifyThread id fun th => { th with link := .ready }).pushReady id

/-- Registers the current thread to wake at a tick. -/
def fallAsleep (wakeTick : Nat) (t : Tables β) : Except Fault (Tables β) := do
  let id ← t.currentId
  if t.isIdle id then
    throw .idleSleep
  else
    let _ ← t.thread id
    let sleepers ← t.sleepers.register id wakeTick
    let t := t.modifyThread id fun th => { th with wakeTick, link := .sleeping }
    return { t with sleepers }

/-! ## The timer's account -/

/-- Charges a tick to a kind of thread and to the current slice, and tells whether the slice is over. -/
def charge (kind : TickKind) (timeSlice : Nat) (t : Tables β) : Except Fault (Bool × Tables β) := do
  let stats ← t.stats.charge kind
  if t.sliceTicks = Word.top32 then
    throw .addOverflow
  else
    let sliceTicks := t.sliceTicks + 1
    return (decide (timeSlice ≤ sliceTicks), { t with stats, sliceTicks })

/-! ## Access, in lemmas -/

theorem thread_eq_ok_iff {t : Tables β} {id : ThreadId} {th : Thread β} :
    t.thread id = .ok th ↔ t.threads.find? id = some th := by
  unfold thread
  cases t.threads.find? id <;> simp

theorem currentId_eq_ok_iff {t : Tables β} {id : ThreadId} :
    t.currentId = .ok id ↔ t.current = some id := by
  unfold currentId
  cases t.current <;> simp

theorem isIdle_iff {t : Tables β} {id : ThreadId} : t.isIdle id = true ↔ t.idle = some id := by
  simp [isIdle]

end Tables
end RoundRobin
