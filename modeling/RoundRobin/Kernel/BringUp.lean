import RoundRobin.Kernel.Spawn

/-!
# Bringing a kernel up

`init` adopts the running code as the first thread; `start` makes the idle thread and turns
preemption on. Each succeeds once. A `start` that finds no page takes back the mark it has set, and
may be tried again.
-/

namespace RoundRobin.Kernel

open Act

variable {C : Client}

/-- The name of the thread that booted. -/
def bootName : String := "main"

/-- The name of the idle thread. -/
def idleName : String := "idle"

/-- Adopts the running code as the thread that booted. Interrupts are still masked. -/
def init : Act C (Except BringUpError Unit) := do
  requireMasked .bringUpUnmasked
  if (← get).initialized then
    return .error .alreadyInitialized
  else
    modify fun k => { k with initialized := true }
    let id ← takeId
    change fun t => .ok
      { t.insertThread { Thread.fresh id bootName Priority.standard none with status := .running } with
        current := some id
        boot := some id }
    log (.initialized (← get).config)
    return .ok ()

/-- Marks that the kernel is started, or that it is not. -/
def setStarted (started : Bool) : Act C Unit := modify fun k => { k with started }

/-- Makes the idle thread and enables interrupts. -/
def start : Act C (Except Error Unit) := do
  let k ← get
  if k.initialized = false then
    return .error (.bringUp .notInitialized)
  else if k.started then
    return .error (.bringUp .alreadyStarted)
  else
    setStarted true
    match ← spawn idleName Priority.lowest .idleLoop with
    | .error e =>
      setStarted false
      return .error (.spawn e)
    | .ok id =>
      masked (change fun t => .ok { t with idle := some id })
      log (.started id)
      setLevel .on
      return .ok ()

/-- Installs a process layer. Only the first one counts. -/
def installHooks : Act C Unit := modify fun k => { k with hooked := true }

end RoundRobin.Kernel
