import RoundRobin.Kernel.Switch

/-!
# The timer

`timerInterrupt` is the handler: it advances the clock, readies the sleepers whose tick has come and
charges the tick to the thread it interrupted. It never gives up the processor. When the tick ends a
slice, or wakes somebody while the idle thread runs, it asks for a yield, and `onTimerInterrupt`
carries that out once the handler is over.
-/

namespace RoundRobin.Kernel

open Act

variable {C : Client}

/-- One tick later, without an interrupt. -/
def advanceClock : Act C Nat := do
  let clock ← orFault (← get).clock.advance
  modify fun k => { k with clock }
  return clock.ticks

/-- Readies the sleepers whose tick has come. The interrupted thread, whether it is the idle thread,
and how many were woken. -/
def wakeSleepers (now : Nat) : Act C (ThreadId × Bool × Nat) := do
  let woken ← update (Tables.wakeDue now)
  let id ← inspect Tables.currentId
  return (id, (← get).tables.isIdle id, woken)

/-- Who is charged for a tick. The process layer is asked about every thread but the idle one. -/
def tickKind (hooks : Hooks C) (id : ThreadId) (idle : Bool) : Act C TickKind := do
  if idle then
    return .idle
  else if ← hooks.callIsUser id then
    return .user
  else
    return .kernel

/-- Asks for a yield once the handler is over. -/
def requestYield : Act C Unit := modify fun k => { k with yieldOnReturn := true }

/-- What a tick means for the threads; nothing before the kernel is initialized. -/
def tickThreads (hooks : Hooks C) (now : Nat) : Act C Unit := do
  if (← get).initialized then
    let (id, idle, woken) ← wakeSleepers now
    let kind ← tickKind hooks id idle
    let expired ← update (Tables.charge kind (← get).config.timeSlice)
    -- The idle loop would notice a woken thread on its next pass; this saves the pass.
    if expired ∨ (idle ∧ 0 < woken) then requestYield

/-- Marks that the handler has started, or that it is over. -/
def setInInterrupt (inside : Bool) : Act C Unit := modify fun k => { k with inInterrupt := inside }

/-- The timer's handler. Interrupts are masked while it runs. -/
def timerInterrupt (hooks : Hooks C) : Act C Unit := do
  requireMasked .timerUnmasked
  requireThreadContext .nestedTimer
  setInInterrupt true
  tickThreads hooks (← advanceClock)
  setInInterrupt false

/-- A whole timer interrupt: the handler, then the yield it asked for. -/
def onTimerInterrupt (hooks : Hooks C) : Act C Unit := do
  timerInterrupt hooks
  if (← get).yieldOnReturn then
    modify fun k => { k with yieldOnReturn := false }
    yieldNow hooks

/-- A timer interrupt as the machine delivers it: with interrupts masked for its length. -/
def deliverInterrupt (hooks : Hooks C) : Act C Unit := masked (onTimerInterrupt hooks)

end RoundRobin.Kernel
