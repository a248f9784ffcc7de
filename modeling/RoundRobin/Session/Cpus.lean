import RoundRobin.Cpu.Daif
import RoundRobin.Cpu.Flag
import RoundRobin.Session.Basic

/-!
# Sessions with a processor

The commands about the interrupt mask are the same for every processor; each kind has a few of its
own.
-/

namespace RoundRobin.Session

inductive MaskCommand where
  | enable
  | disable
  | halt
  | level
  /-- Sets a level and answers the one until then. -/
  | exchange (l : Level)

def MaskCommand.perform {σ : Type} [Maskable σ] : MaskCommand → σ → Answer × σ
  | enable, cpu => (.nothing, Maskable.enable cpu)
  | disable, cpu => (.nothing, Maskable.disable cpu)
  | halt, cpu => (.nothing, Maskable.halt cpu)
  | level, cpu => (.level (Maskable.level cpu), cpu)
  | exchange l, cpu =>
    let (old, cpu) := Maskable.exchange l cpu
    (.level old, cpu)

/-! ## The processor with a flag -/

inductive FlagCommand where
  | mask (c : MaskCommand)
  /-- Switches from a context with entry 1, stack top 32 and argument 3 to an empty one. -/
  | contextSwitch
  | freshContext (entry stackTop argument : Nat)

/-- The fields of a context, in order. -/
def fieldsOf (c : Context) : List Nat := [c.entry, c.stackTop, c.argument]

def FlagCommand.perform : FlagCommand → FlagCpu → Except Fault (Answer × FlagCpu)
  | mask c, cpu => return c.perform cpu
  | contextSwitch, cpu => do
    return (.numbers (fieldsOf ⟨1, 32, 3⟩ ++ fieldsOf {}), ← cpu.switch)
  | freshContext entry stackTop argument, cpu =>
    return (.numbers (fieldsOf (.fresh entry stackTop argument)), cpu)

/-- A session with a processor at reset. -/
def flagCpu (commands : List FlagCommand) : List (Except Fault (Answer × FlagCpu)) :=
  run FlagCommand.perform commands {}

/-! ## The processor with a mask register -/

inductive DaifCommand where
  | mask (c : MaskCommand)
  | setDaif (value : Nat)
  /-- Offsets of the fields of the register file, its size and its alignment. -/
  | layout
  | freshContext (entry stackTop argument : Nat)

def DaifCommand.perform : DaifCommand → DaifCpu → Except Fault (Answer × DaifCpu)
  | mask c, cpu => .ok (c.perform cpu)
  | setDaif value, _ => .ok (.nothing, ⟨BitVec.ofNat 64 value⟩)
  | layout, cpu =>
    .ok (.numbers (RegisterFile.offsets ++ [RegisterFile.size, RegisterFile.alignment]), cpu)
  | freshContext entry stackTop argument, cpu =>
    .ok (.registers (.fresh entry stackTop argument), cpu)

/-- A session with a processor at reset. -/
def daifCpu (commands : List DaifCommand) : List (Except Fault (Answer × DaifCpu)) :=
  run DaifCommand.perform commands .reset

end RoundRobin.Session
