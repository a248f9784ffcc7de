import RoundRobin.Session.Cpus

/-!
# The mask behind a processor

What a program sees of a processor's mask is a level. If levels can be set, read back and put back, then
all that commands about the mask leave behind is one level, set on the processor that they found, and they
answer as they do to a bare level. So two such processors at one level go on answering alike, whatever
else is in them. The flag and the mask register are two of them, and in the register setting a level
touches no bit but the one that masks interrupts.
-/

namespace RoundRobin

open Session

variable {σ τ : Type} [Maskable σ] [Maskable τ]

namespace Maskable

/-- The mask is a level that can be set, read back and put back; a wait enables interrupts. -/
class Lawful (σ : Type) [Maskable σ] : Prop where
  level_setLevel (l : Level) (cpu : σ) : level (setLevel l cpu) = l
  setLevel_level (cpu : σ) : setLevel (level cpu) cpu = cpu
  setLevel_setLevel (l l' : Level) (cpu : σ) : setLevel l (setLevel l' cpu) = setLevel l cpu
  halt_eq (cpu : σ) : halt cpu = setLevel .on cpu

theorem enabled_eq (cpu : σ) : enabled cpu = (level cpu == .on) := by
  unfold level
  cases enabled cpu <;> rfl

/-- The barest processor is a level and nothing else. -/
instance : Maskable Level where
  enabled l := l == .on
  enable _ := .on
  disable _ := .off
  halt _ := .on

theorem level_self (l : Level) : level l = l := by cases l <;> rfl

theorem setLevel_self (l l' : Level) : setLevel l l' = l := by cases l <;> rfl

end Maskable

open Maskable Maskable.Lawful

/-! ## Commands -/

namespace Session.MaskCommand

/-- A command answers as it does to the level alone, and sets the level that it leaves there. -/
theorem perform_eq [Lawful σ] (c : MaskCommand) (cpu : σ) :
    c.perform cpu
      = ((c.perform (Maskable.level cpu)).1, setLevel (c.perform (Maskable.level cpu)).2 cpu) := by
  cases c with
  | enable => rfl
  | disable => rfl
  | halt => exact congrArg (Prod.mk _) (halt_eq cpu)
  | level =>
    show (Answer.level _, cpu) = (Answer.level _, setLevel (Maskable.level cpu) cpu)
    rw [level_self, setLevel_level]
  | exchange l =>
    show (Answer.level _, setLevel l cpu) = (Answer.level _, setLevel (setLevel l (Maskable.level cpu)) cpu)
    rw [level_self, setLevel_self]

/-- What commands answer from a level on, each with the level after it. -/
def levels : List MaskCommand → Level → List (Answer × Level)
  | [], _ => []
  | c :: rest, l => c.perform l :: levels rest (c.perform l).2

variable {κ κ' : Type} {perform : κ → σ → Except Fault (Answer × σ)}
  {perform' : κ' → τ → Except Fault (Answer × τ)} {embed : MaskCommand → κ} {embed' : MaskCommand → κ'}

/-- A session with a processor goes through the levels that its level alone goes through, each of them set
on the processor as it was at the beginning. -/
theorem run_eq [Lawful σ] (h : ∀ c cpu, perform (embed c) cpu = .ok (c.perform cpu))
    (commands : List MaskCommand) (cpu : σ) :
    run perform (commands.map embed) cpu
      = (levels commands (Maskable.level cpu)).map fun r => .ok (r.1, setLevel r.2 cpu) := by
  induction commands generalizing cpu with
  | nil => rfl
  | cons c rest ih =>
    -- what the command leaves to the others is the same processor at another level
    have hlater : ∀ l, run perform (rest.map embed) (setLevel l cpu)
        = (levels rest l).map fun r => .ok (r.1, setLevel r.2 cpu) := by
      intro l
      simp only [ih, level_setLevel, setLevel_setLevel]
    rw [List.map_cons, run, h, perform_eq]
    exact congrArg _ (hlater _)

/-- What a caller sees of a processor after a command: the answer, and whether interrupts are delivered. -/
def seen (r : Except Fault (Answer × σ)) : Except Fault (Answer × Bool) :=
  r.map fun (a, cpu) => (a, enabled cpu)

/-- Two processors at one level show the same to their callers. -/
theorem seen_run_congr [Lawful σ] [Lawful τ] (h : ∀ c cpu, perform (embed c) cpu = .ok (c.perform cpu))
    (h' : ∀ c cpu, perform' (embed' c) cpu = .ok (c.perform cpu)) (commands : List MaskCommand)
    {cpu : σ} {cpu' : τ} (hlevel : Maskable.level cpu = Maskable.level cpu') :
    (run perform (commands.map embed) cpu).map seen
      = (run perform' (commands.map embed') cpu').map seen := by
  rw [run_eq h, run_eq h', hlevel, List.map_map, List.map_map]
  apply List.map_congr_left
  intro r _
  show Except.ok (r.1, enabled (setLevel r.2 cpu)) = .ok (r.1, enabled (setLevel r.2 cpu'))
  rw [enabled_eq, enabled_eq, level_setLevel, level_setLevel]

end Session.MaskCommand

/-! ## Nested sections -/

/-- Sections in which interrupts are masked, one after the other, each with sections inside it. -/
inductive Sections where
  | done
  | masked (inner rest : Sections)

namespace Sections

/-- A section masks interrupts and keeps the old level, and at its end puts it back. -/
def perform : Sections → σ → σ
  | done, cpu => cpu
  | masked inner rest, cpu =>
    let (old, cpu) := exchange .off cpu
    let (_, cpu) := exchange old (inner.perform cpu)
    rest.perform cpu

/-- Sections leave the processor as they found it. -/
theorem perform_eq_self [Lawful σ] (s : Sections) (cpu : σ) : s.perform cpu = cpu := by
  induction s generalizing cpu with
  | done => rfl
  | masked inner rest ihInner ihRest =>
    calc (masked inner rest).perform cpu
        = rest.perform (setLevel (level cpu) (inner.perform (setLevel .off cpu))) := rfl
      _ = setLevel (level cpu) (setLevel .off cpu) := by rw [ihRest, ihInner]
      _ = cpu := by rw [setLevel_setLevel, setLevel_level]

end Sections

/-! ## The flag -/

namespace FlagCpu

instance : Lawful FlagCpu where
  level_setLevel := FlagCpu.level_setLevel
  setLevel_level cpu := by
    obtain ⟨delivering, switches⟩ := cpu
    cases delivering <;> rfl
  setLevel_setLevel l l' cpu := by cases l <;> cases l' <;> rfl
  halt_eq _ := rfl

end FlagCpu

/-! ## The mask register -/

namespace DaifCpu

theorem maskBit_eq : maskBit = BitVec.twoPow 64 7 := by decide

/-- The bits of the register after a level was set: bit 7 tells the level, and the others are as before. -/
theorem getLsbD_setLevel (l : Level) (cpu : DaifCpu) (i : Nat) :
    (setLevel l cpu).daif.getLsbD i = if i = 7 then l == .off else cpu.daif.getLsbD i := by
  have hmask : maskBit.getLsbD i = decide (7 = i) := by
    rw [maskBit_eq, BitVec.getLsbD_twoPow]
    rfl
  cases l with
  | on =>
    show (cpu.daif &&& ~~~maskBit).getLsbD i = _
    rw [BitVec.getLsbD_and, BitVec.getLsbD_not, hmask]
    by_cases hi : i = 7
    · simp [hi]
    -- beyond the width of the register there are no bits, set or clear
    · by_cases hlt : i < 64
      · simp [hi, hlt, Ne.symm hi]
      · simp [hi, BitVec.getLsbD_of_ge _ _ (Nat.le_of_not_lt hlt)]
  | off =>
    show (cpu.daif ||| maskBit).getLsbD i = _
    rw [BitVec.getLsbD_or, hmask]
    by_cases hi : i = 7
    · simp [hi]
    · simp [hi, Ne.symm hi]

/-- The register delivers interrupts while bit 7 is clear. -/
theorem level_eq (cpu : DaifCpu) : level cpu = Level.ofBool (!cpu.daif.getLsbD 7) := by
  show Level.ofBool (cpu.daif &&& maskBit == 0#64) = _
  rw [maskBit_eq, BitVec.and_twoPow]
  cases cpu.daif.getLsbD 7 <;> rfl

theorem ext_bits {cpu cpu' : DaifCpu} (h : ∀ i, cpu.daif.getLsbD i = cpu'.daif.getLsbD i) : cpu = cpu' :=
  congrArg DaifCpu.mk (BitVec.eq_of_getLsbD_eq fun i _ => h i)

instance : Lawful DaifCpu where
  level_setLevel l cpu := by
    rw [level_eq, getLsbD_setLevel, if_pos rfl]
    cases l <;> rfl
  setLevel_level cpu := by
    apply ext_bits
    intro i
    rw [getLsbD_setLevel, level_eq]
    split
    · next hi =>
      rw [hi]
      cases cpu.daif.getLsbD 7 <;> rfl
    · rfl
  setLevel_setLevel l l' cpu := by
    apply ext_bits
    intro i
    rw [getLsbD_setLevel, getLsbD_setLevel, getLsbD_setLevel]
    split <;> rfl
  halt_eq _ := rfl

end DaifCpu

/-! ## One for the other -/

/-- Commands show their callers the same on the mask register as on a flag that tells whether the register
delivers interrupts, and keep every other bit of the register. On either processor nested sections end at
the level at which they began. -/
theorem mask_register_refines_flag :
    (∀ (daif : BitVec 64) (switches : Nat) (commands : List MaskCommand),
      (run DaifCommand.perform (commands.map .mask) ⟨daif⟩).map MaskCommand.seen
        = (run FlagCommand.perform (commands.map .mask)
            ⟨daif &&& 0x80#64 == 0#64, switches⟩).map MaskCommand.seen ∧
      ∀ r ∈ run DaifCommand.perform (commands.map .mask) ⟨daif⟩, ∃ a cpu, r = .ok (a, cpu) ∧
        ∀ i, i ≠ 7 → cpu.daif.getLsbD i = daif.getLsbD i) ∧
    (∀ (s : Sections) (cpu : DaifCpu), level (s.perform cpu) = level cpu) ∧
    ∀ (s : Sections) (cpu : FlagCpu), level (s.perform cpu) = level cpu := by
  refine ⟨?_, fun s cpu => congrArg level (s.perform_eq_self cpu),
    fun s cpu => congrArg level (s.perform_eq_self cpu)⟩
  intro daif switches commands
  have hdaif : ∀ c cpu, DaifCommand.perform (.mask c) cpu = .ok (c.perform cpu) := fun _ _ => rfl
  have hflag : ∀ c cpu, FlagCommand.perform (.mask c) cpu = .ok (c.perform cpu) := fun _ _ => rfl
  refine ⟨MaskCommand.seen_run_congr hdaif hflag commands rfl, ?_⟩
  intro r hr
  rw [MaskCommand.run_eq hdaif] at hr
  obtain ⟨⟨a, l⟩, _, rfl⟩ := List.mem_map.mp hr
  refine ⟨a, _, rfl, ?_⟩
  intro i hi
  rw [DaifCpu.getLsbD_setLevel, if_neg hi]

/-- A register that masks everything but interrupts is masked, halts and is masked again: callers see the
levels of a flag that was set, and bit 9 of the register stays set. -/
theorem mask_register_refines_flag_halting : ∃ commands : List MaskCommand,
    (run FlagCommand.perform (commands.map .mask) ⟨true, 0⟩).map MaskCommand.seen
      = [.ok (.level .on, false), .ok (.nothing, true), .ok (.level .on, false)] ∧
    (run DaifCommand.perform (commands.map .mask) ⟨0x340#64⟩).map MaskCommand.seen
      = [.ok (.level .on, false), .ok (.nothing, true), .ok (.level .on, false)] ∧
    .ok (.level .on, ⟨0x3c0#64⟩) ∈ run DaifCommand.perform (commands.map .mask) ⟨0x340#64⟩ ∧
    9 ≠ 7 ∧ (0x3c0#64).getLsbD 9 = (0x340#64).getLsbD 9 := by
  let commands : List MaskCommand := [.exchange .off, .halt, .exchange .off]
  obtain ⟨hseen, hbits⟩ := mask_register_refines_flag.1 0x340#64 0 commands
  have hlast : .ok (.level .on, ⟨0x3c0#64⟩) ∈ run DaifCommand.perform (commands.map .mask) ⟨0x340#64⟩ :=
    .tail _ (.tail _ (.head _))
  obtain ⟨a, cpu, hcpu, hkept⟩ := hbits _ hlast
  obtain ⟨rfl, rfl⟩ := Prod.mk.inj (Except.ok.inj hcpu)
  exact ⟨commands, rfl, hseen.trans rfl, hlast, by decide, hkept 9 (by decide)⟩

end RoundRobin
