import RoundRobin.Kernel.BringUp
import RoundRobin.Kernel.Query
import RoundRobin.Kernel.Timer
import RoundRobin.Kernel.Wait

/-!
# Calls

The operations of a kernel as data, so that a run is a list of them.
-/

namespace RoundRobin

/-- One operation that the running code, or the machine under it, may ask for. `β` is the code of
threads. -/
inductive Call (β : Type) where
  | init
  | start
  | create (name : String) (priority : Nat) (body : β)
  | unblock (id : ThreadId)
  | block
  | yieldNow
  | exit
  | sleepUntil (wakeTick : Nat)
  | sleep (ticks : Nat)
  | realTimeSleep (num denom : Nat)
  | sleepMillis (n : Nat)
  | sleepMicros (n : Nat)
  | sleepNanos (n : Nat)
  | sleepFor (d : Duration)
  | timerInterrupt
  | onTimerInterrupt
  | setPriority (priority : Nat)
  /-- The caller masks or unmasks interrupts by itself. -/
  | setLevel (l : Level)
  /-- The clock is advanced without an interrupt. -/
  | advanceClock
  | setLoopsPerTick (loops : Nat)
  | dumpStats
  | timerStats
  /-- A process layer is installed. -/
  | installHooks

/-- What a call gives its caller. -/
inductive Reply where
  | done
  | level (l : Level)
  | broughtUp (r : Except Error Unit)
  | created (r : Except SpawnError ThreadId)

namespace Call

variable {C : Client}

/-- Carries out a call. -/
def perform (hooks : Hooks C) : Call C.Body → Act C Reply
  | init => return .broughtUp ((← Kernel.init).mapError .bringUp)
  | start => return .broughtUp (← Kernel.start)
  | create name priority body => return .created (← Kernel.create name priority body)
  | unblock id => do Kernel.unblock id; return .done
  | block => do Kernel.block hooks; return .done
  | yieldNow => do Kernel.yieldNow hooks; return .done
  | exit => do Kernel.exit hooks; return .done
  | sleepUntil wakeTick => do Kernel.sleepUntil hooks wakeTick; return .done
  | sleep ticks => do Kernel.sleep hooks ticks; return .done
  | realTimeSleep num denom => do Kernel.realTimeSleep hooks num denom; return .done
  | sleepMillis n => do Kernel.sleepMillis hooks n; return .done
  | sleepMicros n => do Kernel.sleepMicros hooks n; return .done
  | sleepNanos n => do Kernel.sleepNanos hooks n; return .done
  | sleepFor d => do Kernel.sleepFor hooks d; return .done
  | timerInterrupt => do Kernel.timerInterrupt hooks; return .done
  | onTimerInterrupt => do Kernel.onTimerInterrupt hooks; return .done
  | setPriority priority => do Kernel.setPriority priority; return .done
  | setLevel l => do
    let old ← Act.level
    Act.setLevel l
    return .level old
  | advanceClock => do let _ ← Kernel.advanceClock; return .done
  | setLoopsPerTick loops => do Kernel.setLoopsPerTick loops; return .done
  | dumpStats => do Kernel.dumpStats; return .done
  | timerStats => do Kernel.timerStats; return .done
  | installHooks => do Kernel.installHooks; return .done

end Call
end RoundRobin
