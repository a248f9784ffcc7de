import RoundRobin.Kernel.Dispatch
import RoundRobin.Kernel.Hooks

/-!
# Giving up the processor

The four ways for the running thread to leave: it blocks, it yields, it sleeps until a tick, or it
exits. Each checks its caller, marks where the thread waits, and ends in `giveUpCpu`. On a processor
that only counts its switches the call comes back at once, on behalf of the thread that is then
current.
-/

namespace RoundRobin.Kernel

open Act

variable {C : Client}

/-- Makes a decision and carries it out: the process layer hears of the next thread, then the
processor goes over to it, unless it is the same. -/
def giveUpCpu (hooks : Hooks C) (status : Status) : Act C Unit := do
  requireMasked .schedulingUnmasked
  let d ← update (Tables.giveUp status)
  record (.dispatched d.previous d.next (← level))
  hooks.callActivate d.next
  if d.previous ≠ d.next then switchContext

/-- Waits until some thread unblocks the running one. The caller has masked interrupts. -/
def block (hooks : Hooks C) : Act C Unit := do
  requireThreadContext .blockInHandler
  requireMasked .blockUnmasked
  giveUpCpu hooks .blocked

/-- Lets the other ready threads run first. -/
def yieldNow (hooks : Hooks C) : Act C Unit := do
  requireThreadContext .yieldInHandler
  masked do
    change Tables.requeueCurrent
    giveUpCpu hooks .ready

/-- Waits until the clock reaches a tick. One in the past is waited for until the next tick. -/
def sleepUntil (hooks : Hooks C) (wakeTick : Nat) : Act C Unit := do
  requireThreadContext .sleepInHandler
  masked do
    change (Tables.fallAsleep wakeTick)
    giveUpCpu hooks .blocked

/-- Ends the running thread. Its page is freed by the decision after this one, so interrupts stay
masked for the thread that comes next. -/
def exit (hooks : Hooks C) : Act C Unit := do
  requireThreadContext .exitInHandler
  let id ← inspect Tables.currentId
  log (.exiting id)
  hooks.callExit id
  setLevel .off
  giveUpCpu hooks .dying

end RoundRobin.Kernel
