import RoundRobin.Kernel.Tables

/-!
# The scheduling decision

A thread that gives up the processor leaves with a new status, and the head of the ready queue comes
next, or the idle thread when the queue is empty. A thread that died still runs on its page until the
switch away from it is over, so its page is freed by the decision after that one.
-/

namespace RoundRobin

/-- Who ran and who runs now. They may be the same thread. -/
structure Dispatch where
  previous : ThreadId
  next : ThreadId
deriving DecidableEq, Repr

namespace Tables

variable {β : Type}

/-! ## Freeing the dead -/

/-- Removes a thread that died and takes its page back. -/
def reapOne (id : ThreadId) (t : Tables β) : Except Fault (Tables β) :=
  match t.threads.find? id with
  | none => .ok t
  | some th =>
    if th.status ≠ .dying then .error .reclaimedAlive
    else
      let t := { t with threads := t.threads.erase id }
      match th.page with
      | none => .ok t
      | some page => do return { t with pool := ← t.pool.giveBack page }

/-- Removes several threads, in order. -/
def reapAll : List ThreadId → Tables β → Except Fault (Tables β)
  | [], t => .ok t
  | id :: rest, t => do reapAll rest (← reapOne id t)

/-- Removes every thread that waits to be reclaimed, the last one first. -/
def reap (t : Tables β) : Except Fault (Tables β) := reapAll t.reclaim { t with reclaim := [] }

/-! ## Choosing the next thread -/

/-- Takes the head of the ready queue, or the idle thread. -/
def takeNext (t : Tables β) : Except Fault (ThreadId × Tables β) :=
  match t.ready.pop with
  | (some id, ready) => .ok (id, { t with ready })
  | (none, _) =>
    match t.idle with
    | some id => .ok (id, t)
    | none => .error .nothingRunnable

/-- Gives the processor to a thread, with a whole slice before it. -/
def install (id : ThreadId) (t : Tables β) : Tables β :=
  { t.modifyThread id fun th => { th with status := .running, link := .unlinked } with
    current := some id
    sliceTicks := 0 }

/-- Puts a thread that died aside for the next decision. The thread that booted has no page to free
and stays. -/
def retire (id : ThreadId) (t : Tables β) : Except Fault (Tables β) := do
  let th ← t.thread id
  if th.status = .dying ∧ t.boot ≠ some id then
    let t := t.modifyThread id fun th => { th with link := .reclaim }
    return { t with reclaim := id :: t.reclaim }
  else
    return t

def countSwitch (t : Tables β) : Except Fault (Tables β) := do
  return { t with switches := ← checkedAdd t.switches 1 }

/-- Chooses the next thread and makes it the current one. -/
def dispatch (t : Tables β) : Except Fault (Dispatch × Tables β) := do
  let previous ← t.currentId
  let (next, t) ← t.takeNext
  let outgoing ← t.thread previous
  if outgoing.status = .running then
    throw (.stillRunning previous)
  else
    let incoming ← t.thread next
    if incoming.isIntact = false then
      throw (.corrupted next)
    else
      let t := t.install next
      if previous = next then
        return (⟨previous, next⟩, t)
      else
        let t ← t.retire previous
        return (⟨previous, next⟩, ← t.countSwitch)

/-- The current thread gives up the processor and is left in a status. -/
def giveUp (status : Status) (t : Tables β) : Except Fault (Dispatch × Tables β) := do
  let id ← t.currentId
  let th ← t.thread id
  if th.status ≠ .running then
    throw (.notRunning id)
  else
    let t ← t.reap
    dispatch (t.modifyThread id fun th => { th with status })

end Tables
end RoundRobin
