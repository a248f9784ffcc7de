import RoundRobin.Proofs.InterruptStep
import RoundRobin.Proofs.Tables.Line

/-!
# Exact round robin

As long as nobody wakes and nothing is called, timer interrupts pass the processor round among the
current thread and those who are ready: each of them has it for a whole slice at a time, and the thread
that has it at first for what is left of its slice. So the state after any number of interrupts is known
beforehand.
-/

namespace RoundRobin

variable {C : Client} {hooks : Hooks C} {config : Config} {client : C.State} {k₀ k k' : Kernel C}
  {calls : List (Call C.Body)} {c : ThreadId} {n : Nat}

/-! ## Room for the switch -/

/-- When nobody is due, an interrupt of a working thread switches only at the end of a slice, and only
if somebody is ready. -/
theorem Kernel.Settled.canSwitch (hk : k.Settled) (hworking : k.tables.scene.Working)
    (hlater : ∀ x ∈ k.tables.sleepers.sleepers, k.clock.ticks + 1 < x.wakeTick)
    (hroom : k.tables.ready.ids ≠ [] → k.config.timeSlice ≤ k.tables.sliceTicks + 1 →
      k.tables.switches < Word.top) {s : Core C} (hticked : Core.Ticked k.core s)
    (hasked : s.yieldOnReturn = true) : s.CanSwitch := by
  obtain ⟨c, hc⟩ := Option.isSome_iff_exists.mp hworking.runs
  have hnotIdle : k.tables.idle ≠ some c :=
    hworking.notIdle c (Scene.line_of_current hc ▸ List.mem_cons_self)
  cases hticked with
  | early hfresh => exact absurd (hk.up.symm.trans hfresh) nofun
  | @full user asks t _ ht =>
    have ht : k.tables.tick user (k.clock.ticks + 1) k.config.timeSlice = .ok (asks, t) := ht
    obtain ⟨hscene, hasks⟩ := hk.sound.scene_of_tick hk.ordered hc ht
    rw [Scene.wake_of_later hlater] at hscene
    have hlast : k.config.timeSlice ≤ k.tables.sliceTicks + 1 := by
      have hyes : asks = true := by
        have hor : (k.yieldOnReturn || asks) = true := hasked
        rwa [hk.calm, Bool.false_or] at hor
      rw [hasks, Scene.preempts_eq hlater] at hyes
      exact of_decide_eq_true hyes
    have hqueue : t.ready.ids = k.tables.ready.ids := congrArg Scene.queue hscene
    have hswitches : t.switches = k.tables.switches := congrArg Scene.switches hscene
    have hcurrent : t.current = some c := (congrArg Scene.current hscene).trans hc
    have hidle : t.idle = k.tables.idle := congrArg Scene.idle hscene
    intro c' hc' hother
    have hsame : c' = c := Option.some.inj (hc'.symm.trans hcurrent)
    subst hsame
    have hready : k.tables.ready.ids ≠ [] := by
      intro hempty
      refine hother ?_
      show (t.marked .yield c').upNext = some c'
      rw [show t.marked .yield c' = t.requeued c' from if_neg (hidle ▸ hnotIdle)]
      show (t.ready.ids ++ [c']).head?.or t.idle = some c'
      rw [hqueue, hempty]
      rfl
    have hless := hroom hready hlast
    exact ⟨Nat.lt_of_le_of_lt (Nat.le_of_eq hswitches) hless,
      Nat.lt_of_le_of_lt (Nat.le_of_eq hk.carriedOut) hless⟩

/-! ## Interrupts, one after another -/

namespace Kernel

/-- What `n` interrupts that wake nobody make of a kernel. -/
structure Turned (n : Nat) (k k' : Kernel C) : Prop where
  config : k'.config = k.config
  scene : Scene.Turned k.config.timeSlice n k.tables.scene k'.tables.scene
  ticks : k'.clock.ticks = k.clock.ticks + n
  level : Maskable.level k'.cpu = Maskable.level k.cpu
  spawns : k'.spawns = k.spawns

theorem Turned.refl (hslice : k.tables.sliceTicks < k.config.timeSlice) : Turned 0 k k :=
  ⟨rfl, .refl hslice, rfl, rfl, rfl⟩

theorem Turned.trans {m : Nat} {k₁ : Kernel C} (hruns : k.tables.current.isSome = true)
    (hpos : 0 < k.config.timeSlice) (h : Turned m k k₁) (h' : Turned n k₁ k') :
    Turned (m + n) k k' := by
  have hscene := h'.scene
  rw [h.config] at hscene
  exact ⟨h'.config.trans h.config, h.scene.trans hruns hpos hscene, by
    rw [h'.ticks, h.ticks, Nat.add_assoc], h'.level.trans h.level, h'.spawns.trans h.spawns⟩

/-- Whoever sleeps on after all of them is not due at the next one of them. -/
theorem Turned.later (h : Turned n k k')
    (hlater : ∀ x ∈ k.tables.sleepers.sleepers, k.clock.ticks + (n + 1) < x.wakeTick) :
    ∀ x ∈ k'.tables.sleepers.sleepers, k'.clock.ticks + 1 < x.wakeTick := by
  have hsame : k'.tables.sleepers.sleepers = k.tables.sleepers.sleepers := h.scene.sleepers
  rw [hsame, h.ticks, Nat.add_assoc]
  exact hlater

/-- If the switches of one more interrupt can be counted, so can the switch that this one makes. -/
theorem Turned.room (h : Turned n k k') (hruns : k.tables.current.isSome = true)
    (hpos : 0 < k.config.timeSlice)
    (hswitches : k.tables.ready.ids ≠ [] →
      k.tables.switches + (k.tables.sliceTicks + (n + 1)) / k.config.timeSlice ≤ Word.top) :
    k'.tables.ready.ids ≠ [] → k'.config.timeSlice ≤ k'.tables.sliceTicks + 1 →
      k'.tables.switches < Word.top := by
  intro hready hlast
  have hready₀ : k.tables.ready.ids ≠ [] := mt (h.scene.queue_eq_nil hruns).mpr hready
  have hslice : k'.tables.sliceTicks = (k.tables.sliceTicks + n) % k.config.timeSlice :=
    h.scene.slice
  have hmade : k'.tables.switches
      = k.tables.switches + (k.tables.sliceTicks + n) / k.config.timeSlice := by
    have hcount := h.scene.switches
    rw [if_neg (show k.tables.scene.queue ≠ [] from hready₀)] at hcount
    exact hcount
  -- the tick that ends a slice is the last one of `n + 1`
  have hone : (k.tables.sliceTicks + n) / k.config.timeSlice + 1
      ≤ (k.tables.sliceTicks + (n + 1)) / k.config.timeSlice := by
    rw [Nat.le_div_iff_mul_le hpos, Nat.add_mul, Nat.one_mul]
    have hdiv := Nat.div_add_mod' (k.tables.sliceTicks + n) k.config.timeSlice
    rw [h.config, hslice] at hlast
    omega
  have hroom := hswitches hready₀
  omega

/-- One such interrupt. -/
theorem Settled.turned {u : Unit} (hq : hooks.QueryOnly) (hk : k.Settled)
    (hworking : k.tables.scene.Working)
    (hlater : ∀ x ∈ k.tables.sleepers.sleepers, k.clock.ticks + 1 < x.wakeTick)
    (h : onTimerInterrupt hooks k = .ok u k') : Turned 1 k k' := by
  obtain ⟨c, hc⟩ := Option.isSome_iff_exists.mp hworking.runs
  obtain ⟨hscene, _, history, client, hagrees⟩ := hk.interrupt hq hc h
  have hstep : Call.perform hooks .onTimerInterrupt k = .ok .done k' :=
    Act.bind_pure_eq_ok_iff.mpr ⟨u, h, rfl⟩
  have hturned : Scene.Turned k.config.timeSlice 1 k.tables.scene k'.tables.scene := by
    rw [hscene]
    exact hworking.interrupt hc hlater hk.slice
  have hspawns : k'.core.spawns = k.core.spawns := (Call.effect hq hstep).spawns_of_timer rfl
  refine ⟨?_, hturned, ?_, ?_, hspawns⟩
  · rw [hagrees]
    rfl
  · rw [hagrees]
    rfl
  · rw [hagrees]
    rfl

end Kernel

/-- The calls of `n` whole interrupts. -/
def interrupts (β : Type) (n : Nat) : List (Call β) := List.replicate n .onTimerInterrupt

theorem interrupts_succ (β : Type) (n : Nat) :
    interrupts β (n + 1) = interrupts β n ++ [.onTimerInterrupt] := List.replicate_succ'

theorem whole_append_interrupts {β : Type} {calls : List (Call β)} (hwhole : .timerInterrupt ∉ calls)
    (n : Nat) : .timerInterrupt ∉ calls ++ interrupts β n := by
  rw [List.mem_append, not_or]
  exact ⟨hwhole, fun hmem => nomatch List.eq_of_mem_replicate hmem⟩

/-- Every number of interrupts, of a kernel that a run has left in which a thread works. -/
theorem Run.turned (hq : hooks.QueryOnly) (h₀ : Kernel.ofConfig config client = .ok k₀)
    (hrun : Run hooks anyCall k₀ calls k) (hwhole : .timerInterrupt ∉ calls)
    (hup : k.initialized = true) (hspawns : k.spawns < Word.top)
    (hworking : k.tables.scene.Working)
    (hlater : ∀ x ∈ k.tables.sleepers.sleepers, k.clock.ticks + n < x.wakeTick)
    (hthen : Run hooks anyCall k (interrupts C.Body n) k') : k.Turned n k' ∧ k'.Settled := by
  have hk := hrun.settled hq h₀ hwhole hup hspawns
  induction n generalizing k' with
  | zero =>
    rw [hthen.eq_of_nil]
    exact ⟨.refl hk.slice, hk⟩
  | succ n ih =>
    rw [interrupts_succ] at hthen
    obtain ⟨r, k₁, hfirst, hstep⟩ := hthen.unsnoc
    obtain ⟨hturned, hk₁⟩ := ih (fun x hx => by have := hlater x hx; omega) hfirst
    obtain ⟨u, h, _⟩ := Act.bind_pure_eq_ok_iff.mp hstep
    have hone := hk₁.turned hq (hworking.turned hturned.scene) (hturned.later hlater) h
    have hall : k.Turned (n + 1) k' :=
      hturned.trans hworking.runs (Nat.zero_lt_of_lt hk.slice) hone
    have hrun' := hrun.append (hfirst.snoc trivial hstep)
    rw [← interrupts_succ] at hrun'
    exact ⟨hall, hrun'.settled hq h₀ (whole_append_interrupts hwhole _)
      (hfirst.snoc trivial hstep |>.keeps hq Core.kept_initialized hup) (hall.spawns ▸ hspawns)⟩

/-- All of them come back while the clock and the switches can be counted. -/
theorem Run.interrupts_return (hq : hooks.QueryOnly) (hp : hooks.Prompt)
    (h₀ : Kernel.ofConfig config client = .ok k₀) (hword : config.timeSlice ≤ Word.top32)
    (hrun : Run hooks anyCall k₀ calls k) (hwhole : .timerInterrupt ∉ calls)
    (hup : k.initialized = true) (hoff : Maskable.level k.cpu = .off)
    (hspawns : k.spawns < Word.top) (hworking : k.tables.scene.Working)
    (hlater : ∀ x ∈ k.tables.sleepers.sleepers, k.clock.ticks + n < x.wakeTick)
    (hticks : k.clock.ticks + n ≤ Word.top)
    (hswitches : k.tables.ready.ids ≠ [] →
      k.tables.switches + (k.tables.sliceTicks + n) / k.config.timeSlice ≤ Word.top) :
    ∃ k', Run hooks anyCall k (interrupts C.Body n) k' := by
  have hk := hrun.settled hq h₀ hwhole hup hspawns
  induction n with
  | zero => exact ⟨k, .nil⟩
  | succ n ih =>
    obtain ⟨k₁, hfirst⟩ := ih (fun x hx => by have := hlater x hx; omega) (by omega) fun hready => by
      have hless : (k.tables.sliceTicks + n) / k.config.timeSlice
          ≤ (k.tables.sliceTicks + (n + 1)) / k.config.timeSlice := Nat.div_le_div_right (by omega)
      have hroom := hswitches hready
      omega
    obtain ⟨hturned, hk₁⟩ := hrun.turned hq h₀ hwhole hup hspawns hworking
      (fun x hx => by have := hlater x hx; omega) hfirst
    have hroom := hturned.room hworking.runs (Nat.zero_lt_of_lt hk.slice) hswitches
    obtain ⟨k', h⟩ := (hrun.append hfirst).onTimerInterrupt_returns hq hp h₀ hword hk₁
      (hturned.level.trans hoff) (by rw [hturned.ticks]; omega) (hturned.spawns ▸ hspawns)
      fun _ => hk₁.canSwitch (hworking.turned hturned.scene) (hturned.later hlater) hroom
    exact ⟨k', interrupts_succ _ n ▸ hfirst.snoc trivial (Act.bind_pure_eq_ok_iff.mpr ⟨(), h, rfl⟩)⟩

/-! ## Round robin -/

/-- `k'` is what `n` interrupts make of `k`, in which `c` runs. -/
structure Rotated (c : ThreadId) (timeSlice n : Nat) (k k' : Kernel C) : Prop where
  /-- The line of threads is rotated by one place for each slice that is used up. -/
  line : ∃ c', k'.tables.current = some c' ∧ c' :: k'.tables.ready.ids
    = (c :: k.tables.ready.ids).rotate ((k.tables.sliceTicks + n) / timeSlice)
  slice : k'.tables.sliceTicks = (k.tables.sliceTicks + n) % timeSlice
  /-- Each of these slices ends with a switch, unless `c` is alone. -/
  switches : k'.tables.switches = k.tables.switches
    + if k.tables.ready.ids = [] then 0 else (k.tables.sliceTicks + n) / timeSlice
  /-- So the threads of the line take turns, each for one slice, and the slice of `c` had already
  begun. -/
  turn : ∀ m, m * timeSlice ≤ k.tables.sliceTicks + n →
    k.tables.sliceTicks + n < (m + 1) * timeSlice →
      k'.tables.current = (c :: k.tables.ready.ids)[m % (k.tables.ready.ids.length + 1)]?

/-- From every state of a run with whole interrupts in which a thread other than the idle one runs,
every number of interrupts rotates the line of threads, so long as nobody is due meanwhile. With
interrupts masked all of them come back. -/
theorem exact_round_robin (hq : hooks.QueryOnly) (h₀ : Kernel.ofConfig config client = .ok k₀)
    (hword : config.timeSlice ≤ Word.top32) (hrun : Run hooks anyCall k₀ calls k)
    (hwhole : .timerInterrupt ∉ calls) (hup : k.initialized = true) (hspawns : k.spawns < Word.top)
    (hc : k.tables.current = some c) (hidle : k.tables.idle ≠ some c)
    (hlater : ∀ x ∈ k.tables.sleepers.sleepers, k.clock.ticks + n < x.wakeTick)
    (hticks : k.clock.ticks + n ≤ Word.top)
    (hswitches : k.tables.switches + (if k.tables.ready.ids = [] then 0
      else (k.tables.sliceTicks + n) / config.timeSlice) ≤ Word.top) :
    (hooks.Prompt → Maskable.level k.cpu = .off →
        ∃ k', Run hooks anyCall k (interrupts C.Body n) k') ∧
      ∀ k', Run hooks anyCall k (interrupts C.Body n) k' → Rotated c config.timeSlice n k k' := by
  have hconfig := hrun.config_eq hq h₀
  have hk := hrun.settled hq h₀ hwhole hup hspawns
  have hworking := hk.sound.working hc hidle
  rw [← hconfig] at hswitches hword ⊢
  constructor
  · intro hp hoff
    refine hrun.interrupts_return hq hp h₀ (hconfig ▸ hword) hwhole hup hoff hspawns hworking hlater
      hticks fun hready => ?_
    rwa [if_neg hready] at hswitches
  · intro k' hthen
    have hturned := (hrun.turned hq h₀ hwhole hup hspawns hworking hlater hthen).1.scene
    obtain ⟨c', hc'⟩ := Option.isSome_iff_exists.mp (hturned.runs.trans hworking.runs)
    have hc' : k'.tables.current = some c' := hc'
    have hline : c' :: k'.tables.ready.ids = (c :: k.tables.ready.ids).rotate
        ((k.tables.sliceTicks + n) / k.config.timeSlice) := by
      have hrotated := hturned.line
      rw [Scene.line_of_current (s := k.tables.scene) hc,
        Scene.line_of_current (s := k'.tables.scene) hc'] at hrotated
      exact hrotated
    refine ⟨⟨c', hc', hline⟩, hturned.slice, hturned.switches, fun m hlow hhigh => ?_⟩
    have hm : (k.tables.sliceTicks + n) / k.config.timeSlice = m :=
      Nat.div_eq_of_lt_le hlow hhigh
    rw [hm, ← List.rotate_mod] at hline
    have hplace : m % (c :: k.tables.ready.ids).length < (c :: k.tables.ready.ids).length :=
      Nat.mod_lt _ (Nat.succ_pos _)
    have hhead := congrArg List.head? hline
    rw [List.head?_rotate hplace] at hhead
    rw [hc']
    exact hhead

/-- Three workers share the processor while the thread that booted sleeps. -/
def sharingCalls : List (Call Unit) := [.init, .start, .create "first" 31 (), .create "second" 31 (),
  .create "third" 31 (), .sleepUntil 100, .setLevel .off, .onTimerInterrupt]

/-- Fourteen ticks after the first one of the first worker, everybody had a turn, and three ticks of the
first worker's next one are over. -/
theorem exact_round_robin_three : ∃ k k' : Kernel plainClient,
    plainKernel.after .plain (fun _ _ => true) sharingCalls = some k ∧
    Run .plain anyCall k (interrupts Unit 14) k' ∧ Rotated ⟨3⟩ 4 14 k k' ∧
    k.tables.sliceTicks = 1 ∧ k'.tables.sliceTicks = 3 ∧ k'.tables.current = some ⟨3⟩ ∧
    k'.tables.ready.ids = [⟨4⟩, ⟨5⟩] ∧ k'.tables.switches = k.tables.switches + 3 := by
  have hchecks : (plainKernel.after .plain (fun _ _ => true) sharingCalls).any (fun k =>
      k.initialized && decide (Maskable.level k.cpu = .off) && decide (k.spawns < Word.top) &&
        decide (k.tables.current = some ⟨3⟩) && decide (k.tables.idle ≠ some ⟨3⟩) &&
          decide (∀ x ∈ k.tables.sleepers.sleepers, k.clock.ticks + 14 < x.wakeTick) &&
            decide (k.clock.ticks + 14 ≤ Word.top) && decide (k.tables.switches ≤ 10) &&
              decide (k.tables.ready.ids = [⟨4⟩, ⟨5⟩] ∧ k.tables.sliceTicks = 1)) = true := by
    decide +kernel
  obtain ⟨k, hk, hchecks⟩ := (Option.any_eq_true _ _).mp hchecks
  simp only [Bool.and_eq_true, decide_eq_true_eq] at hchecks
  obtain ⟨⟨⟨⟨⟨⟨⟨⟨hup, hoff⟩, hspawns⟩, hc⟩, hidle⟩, hlater⟩, hticks⟩, hfew⟩, hready, hslice⟩ := hchecks
  obtain ⟨hreturns, hrotated⟩ := exact_round_robin Hooks.queryOnly_plain ofConfig_standard
    (by decide) ((Run.of_after hk).mono fun _ _ _ => trivial) nofun hup hspawns hc hidle hlater hticks
    (by
      rw [if_neg (hready ▸ nofun), hslice]
      exact Nat.le_trans (Nat.add_le_add_right hfew _) (by decide))
  obtain ⟨k', hk'⟩ := hreturns Hooks.prompt_plain hoff
  have hafter := hrotated k' hk'
  obtain ⟨c', hc', hline⟩ := hafter.line
  have hslice' := hafter.slice
  have hswitches' := hafter.switches
  rw [hready, hslice] at hline
  rw [hslice] at hslice'
  rw [if_neg (hready ▸ nofun), hslice] at hswitches'
  obtain ⟨rfl, hqueue⟩ := List.cons.inj (hline.trans (show _ = [⟨3⟩, ⟨4⟩, ⟨5⟩] by decide))
  exact ⟨k, k', hk, hk', hafter, hslice, hslice', hc', hqueue, hswitches'⟩

end RoundRobin
