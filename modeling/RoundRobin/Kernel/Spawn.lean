import RoundRobin.Kernel.Basic

/-!
# Making threads, and making them ready

A new thread needs a page; when none is left, nothing has been changed. It starts out blocked.
-/

namespace RoundRobin.Kernel

open Act

variable {C : Client}

/-- A page for a new thread, if there is one. -/
def takePage : Act C (Option Page) := masked do
  match (← get).tables.pool.allocate with
  | none => return none
  | some (page, pool) =>
    change fun t => .ok { t with pool }
    return some page

/-- The next thread id. -/
def takeId : Act C ThreadId := modifyGet fun k => (k.nextId, { k with nextId := k.nextId.next })

/-- A thread with a page of its own, whose context starts at the top of that page. -/
def freshThread (image : Image) (id : ThreadId) (name : String) (priority : Nat) (page : Page)
    (entry : Entry C.Body) : Thread C.Body :=
  { (.fresh id name priority (some page) : Thread C.Body) with
    entry := some entry
    context := .fresh image.trampoline page.top image.scheduler }

/-- Makes a thread and leaves it blocked. -/
def spawn (name : String) (priority : Nat) (entry : Entry C.Body) :
    Act C (Except SpawnError ThreadId) := do
  let k ← get
  if k.initialized then
    match ← takePage with
    | none => return .error .outOfMemory
    | some page =>
      let id ← takeId
      masked (change fun t => .ok (t.insertThread (freshThread k.image id name priority page entry)))
      return .ok id
  else
    return .error .notInitialized

/-- Makes a blocked thread ready. The caller keeps the processor. -/
def unblock (id : ThreadId) : Act C Unit := masked (change (Tables.unblock id))

/-- Makes a thread and puts it at the tail of the ready queue. -/
def create (name : String) (priority : Nat) (body : C.Body) : Act C (Except SpawnError ThreadId) := do
  if Priority.highest < priority then
    return .error (.invalidPriority priority)
  else
    match ← spawn name priority (.body body) with
    | .error e => return .error e
    | .ok id =>
      unblock id
      log (.created name id priority)
      return .ok id

end RoundRobin.Kernel
