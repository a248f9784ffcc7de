import RoundRobin.Kernel.Basic

/-!
# New kernels

A kernel reserves everything it will ever need from its configuration. A configuration out of range
is an error; one that is in range and asks for more than there can be is a fault.
-/

namespace RoundRobin

/-- Why there is no kernel for a configuration. -/
inductive Refusal where
  | config (e : Error)
  | fault (f : Fault)
deriving DecidableEq, Repr

namespace Kernel

variable {C : Client}

/-- Bytes that one thread takes in the list of threads to reclaim. -/
def reclaimEntryBytes : Nat := 8

/-- Room for all threads, in every container. The thread that booted has no page and still takes a
slot. -/
def reserveSlots (maxThreads : Nat) : Except Fault Nat := do
  let slots ← checkedAdd maxThreads 1
  reserve ReadyQueue.entryBytes slots
  reserve SleepRegistry.entryBytes slots
  reserve reclaimEntryBytes slots
  return slots

/-- Reserves what a configuration asks for. Nothing runs yet. -/
def assemble (config : Config) (client : C.State) : Except Fault (Kernel C) := do
  let slots ← reserveSlots config.maxThreads
  let clock ← Clock.ofFrequency config.timerHz
  let pool ← PagePool.ofCapacity config.pageSize config.maxThreads
  return { config, clock, client, tables := { ready := .empty slots, pool } }

/-- A kernel for a configuration, if the configuration is in range. -/
def ofConfig (config : Config) (client : C.State) : Except Refusal (Kernel C) :=
  match config.validate with
  | .error e => .error (.config e)
  | .ok () =>
    match assemble config client with
    | .error f => .error (.fault f)
    | .ok k => .ok k

end Kernel
end RoundRobin
