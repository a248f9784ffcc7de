import RoundRobin.Page.Pool
import RoundRobin.Ready
import RoundRobin.Session.Basic
import RoundRobin.Sleep

/-!
# Sessions with the scheduler's queues

The ready queue and the sleep registry, each by itself.
-/

namespace RoundRobin.Session

inductive ReadyCommand where
  | push (id : ThreadId)
  | pop
  | length
  | isEmpty

def ReadyCommand.perform : ReadyCommand → ReadyQueue → Except Fault (Answer × ReadyQueue)
  | push id, q => return (.nothing, ← q.push id)
  | pop, q =>
    match q.pop with
    | (some id, q) => return (.number id.val, q)
    | (none, q) => return (.nothing, q)
  | length, q => return (.number q.length, q)
  | isEmpty, q => return (.flag q.isEmpty, q)

/-- A session with a new ready queue. -/
def ready (capacity : Nat) (commands : List ReadyCommand) :
    Except Fault (List (Except Fault (Answer × ReadyQueue))) := do
  reserve ReadyQueue.entryBytes capacity
  return run ReadyCommand.perform commands (.empty capacity)

inductive SleepCommand where
  | register (id : ThreadId) (wakeTick : Nat)
  | due (now : Nat)
  | wake (now : Nat)
  | contains (id : ThreadId)
  | length
  | isEmpty

def SleepCommand.perform : SleepCommand → SleepRegistry → Except Fault (Answer × SleepRegistry)
  | register id wakeTick, r => return (.nothing, ← r.register id wakeTick)
  | due now, r => return (.flag (r.due now), r)
  | wake now, r =>
    let (ids, r) := r.wake now
    return (.woken ids.length ids, r)
  | contains id, r => return (.flag (r.contains id), r)
  | length, r => return (.number r.length, r)
  | isEmpty, r => return (.flag r.isEmpty, r)

/-- A session with a new sleep registry. -/
def sleep (capacity : Nat) (commands : List SleepCommand) :
    Except Fault (List (Except Fault (Answer × SleepRegistry))) := do
  reserve SleepRegistry.entryBytes capacity
  return run SleepCommand.perform commands .empty

end RoundRobin.Session
