import RoundRobin.Proofs.DispatchTrace
import RoundRobin.Proofs.Kernel.Handler
import RoundRobin.Proofs.Registrations
import RoundRobin.Proofs.Tables.Scene

/-!
# A timer interrupt is one step

A whole interrupt goes through two critical sections, a question to the process layer, a flag that is
set and looked at, and a yield. From outside it is one step of the scene that the tables show: those who
are due are queued, the tick is charged, and the thread that was interrupted either goes on or makes room
for the next one.
-/

namespace RoundRobin

variable {C : Client} {hooks : Hooks C} {k k' : Kernel C} {c : ThreadId}

/-! ## Between two calls -/

namespace Core

/-- What every call keeps, as long as handlers are always followed by the yield that they asked for. -/
structure Lasting (s : Core C) : Prop where
  accounted : s.Accounted
  counted : s.Counted
  paced : s.Paced
  tallied : s.Tallied
  ordered : s.tables.sleepers.Ordered

variable {s s' : Core C}

theorem Lasting.effect {c : Call C.Body} (h : Lasting s) (hwhole : c ≠ .timerInterrupt)
    (he : Effect s c s') : Lasting s' where
  accounted := kept_accounted.effect h.accounted he
  counted := kept_counted.effect h.counted he
  paced := (h.paced.effect hwhole he).1
  tallied := kept_tallied.effect h.tallied he
  ordered := kept_ordered.effect h.ordered he

theorem Lasting.sound (h : Lasting s) (hup : s.initialized = true) (hspawns : s.spawns < Word.top) :
    s.tables.Sound :=
  (h.accounted.coherent.recorded hspawns hup).sound

/-- The processor has made the switches that the tables count. -/
theorem Lasting.carriedOut (h : Lasting s) : s.switches = s.tables.switches :=
  h.tallied.byProcessor.trans h.tallied.byTables.symm

end Core

namespace Kernel

/-- An initialized kernel between two calls, with no yield pending. -/
structure Settled (k : Kernel C) : Prop where
  up : k.initialized = true
  calm : k.yieldOnReturn = false
  slice : k.tables.sliceTicks < k.config.timeSlice
  sound : k.tables.Sound
  ordered : k.tables.sleepers.Ordered
  carriedOut : k.cpu.switches = k.tables.switches

theorem settled_of_lasting (h : k.core.Lasting) (hup : k.initialized = true)
    (hspawns : k.spawns < Word.top) : k.Settled :=
  ⟨hup, h.paced.calm, h.paced.slice, h.sound hup hspawns, h.ordered, h.carriedOut⟩

/-! ## The step -/

/-- The thread that an interrupt finds is charged, and it goes on or yields, as the scene says. Nothing
else in the kernel changes but the clock and the two flags, and the count of the processor. -/
theorem Settled.interrupt {u : Unit} (hq : hooks.QueryOnly) (hk : k.Settled)
    (hc : k.tables.current = some c) (h : onTimerInterrupt hooks k = .ok u k') :
    k'.tables.scene = k.tables.scene.interrupt c (k.kindAt hooks) (k.clock.ticks + 1)
        k.config.timeSlice ∧ k'.tables.Sound ∧
      Agrees (k.interrupted k'.tables (if k'.tables.current = some c then k.cpu.switches
        else k.cpu.switches + 1)) k' := by
  have hsound := hk.sound
  obtain ⟨asks, t, ht, hcase⟩ := agrees_of_onTimerInterrupt hq hk.up hk.calm h
  obtain ⟨hscene, hasks⟩ := hsound.scene_of_tick hk.ordered hc ht
  have hcurrent : t.current = some c := by
    rw [Tables.rest_of_tick ht]
    exact hc
  unfold Scene.interrupt
  dsimp only
  rw [← hasks]
  rcases hcase with ⟨hno, hagrees⟩ | ⟨hyes, d, t', hleave, hagrees⟩
  · have htables : k'.tables = t := by
      obtain ⟨_, _, rfl⟩ := hagrees
      rfl
    rw [htables, hno, if_neg nofun, hcurrent, if_pos rfl]
    exact ⟨hscene, hsound.tick ht, hagrees⟩
  · have htables : k'.tables = t' := by
      obtain ⟨_, _, rfl⟩ := hagrees
      rfl
    have hparting := Tables.parting_of_leave hleave
    have hprevious : d.previous = c := by
      have hsame := hparting.previous
      rw [hcurrent, Option.some.injEq] at hsame
      exact hsame.symm
    have hyield := (hsound.tick ht).scene_of_yield hleave
    rw [hprevious, hscene] at hyield
    rw [htables, hyes, if_pos rfl, hparting.current]
    refine ⟨hyield, (hsound.tick ht).leave hleave, ?_⟩
    -- the processor switches when the next thread is another one
    have hswitches : (if some d.next = some c then k.cpu.switches else k.cpu.switches + 1)
        = k.switchesAfter d := by
      unfold switchesAfter
      rw [hprevious]
      simp only [Option.some.injEq, eq_comm]
    rw [hswitches]
    exact hagrees

end Kernel

variable {config : Config} {client : C.State} {k₀ : Kernel C} {calls : List (Call C.Body)}
  {allowed : Kernel C → Call C.Body → Prop}

/-- A run with whole interrupts, that is, with no handler but as part of one. -/
theorem Run.lasting (hq : hooks.QueryOnly) (h₀ : Kernel.ofConfig config client = .ok k₀)
    (hrun : Run hooks allowed k₀ calls k) (hwhole : .timerInterrupt ∉ calls) : k.core.Lasting where
  accounted := hrun.accounted hq h₀
  counted := hrun.counted hq h₀
  paced := (hrun.paced hq hwhole (Kernel.paced_of_ofConfig h₀)).1
  tallied := hrun.keeps hq Core.kept_tallied (by
    obtain ⟨_, _, rfl⟩ := Kernel.eq_of_ofConfig h₀
    exact ⟨rfl, rfl⟩)
  ordered := (hrun.reached hq (Kernel.reached_of_ofConfig h₀)).ordered

/-- A run that initialized the kernel leaves it settled, if handlers were always followed by the yield
that they asked for. -/
theorem Run.settled (hq : hooks.QueryOnly) (h₀ : Kernel.ofConfig config client = .ok k₀)
    (hrun : Run hooks allowed k₀ calls k) (hwhole : .timerInterrupt ∉ calls)
    (hup : k.initialized = true) (hspawns : k.spawns < Word.top) : k.Settled :=
  Kernel.settled_of_lasting (hrun.lasting hq h₀ hwhole) hup hspawns

/-- An interrupt that comes to it with interrupts masked comes back, if a switch that it makes can be
counted. -/
theorem Run.onTimerInterrupt_returns (hq : hooks.QueryOnly) (hp : hooks.Prompt)
    (h₀ : Kernel.ofConfig config client = .ok k₀) (hword : config.timeSlice ≤ Word.top32)
    (hrun : Run hooks allowed k₀ calls k) (hk : k.Settled) (hoff : Maskable.level k.cpu = .off)
    (hticks : k.clock.ticks < Word.top) (hspawns : k.spawns < Word.top)
    (hroom : ∀ s, Core.Ticked k.core s → s.yieldOnReturn = true → s.CanSwitch) :
    ∃ k', Kernel.onTimerInterrupt hooks k = .ok () k' := by
  have hslice := hk.slice
  rw [hrun.config_eq hq h₀] at hslice
  obtain ⟨hupright, hstats⟩ := hrun.upright hq h₀ hk.up hticks hspawns
  have hends := Kernel.onTimerInterrupt_ends hq hp hupright hticks hstats (by omega) hroom
  rw [hoff] at hends
  obtain ⟨u, k', hreturns⟩ := hends
  exact ⟨k', hreturns⟩

/-- `k'` is what an interrupt makes of `k`, where those in `waiting` sleep, listed in the order in which
they fell asleep. -/
structure Interrupted (hooks : Hooks C) (waiting : List Sleeper) (k k' : Kernel C) : Prop where
  tick : k'.clock.ticks = k.clock.ticks + 1
  /-- Whoever is due wakes, by wake tick and then by age of the registration. -/
  due : k.tables.scene.due (k.clock.ticks + 1) = (SleepRegistry.byTick
    (waiting.filter fun x => x.wakeTick ≤ k.clock.ticks + 1)).map (·.thread)
  /-- The tables show what the step says. -/
  step : ∃ c, k.tables.current = some c ∧
    k'.tables.scene = k.tables.scene.interrupt c (k.kindAt hooks) (k.clock.ticks + 1)
      k.config.timeSlice
  /-- Somebody runs. -/
  runs : ∃ n th, k'.tables.current = some n ∧ k'.tables.threads.find? n = some th ∧
    th.status = .running
  /-- The cached tick is the earliest one of those who sleep on. -/
  cached : k'.tables.sleepers.Exact
  /-- The two flags are clear, the processor switched if another thread runs, and the kernel is else as
  it was, but for its history and what the client keeps. -/
  rest : (k.interrupted k'.tables (if k'.tables.current = k.tables.current then k.cpu.switches
    else k.cpu.switches + 1)).Agrees k'

/-- Every interrupt that comes to an initialized kernel with interrupts masked comes back, and is one
step, whatever was called before, so long as handlers were always followed by the yield that they asked
for. -/
theorem interrupt_is_one_step (hq : hooks.QueryOnly) (h₀ : Kernel.ofConfig config client = .ok k₀)
    (hword : config.timeSlice ≤ Word.top32) (hrun : Run hooks anyCall k₀ calls k)
    (hwhole : .timerInterrupt ∉ calls) (hup : k.initialized = true)
    (hoff : Maskable.level k.cpu = .off) (hticks : k.clock.ticks < Word.top)
    (hswitches : k.tables.switches < Word.top) (hspawns : k.spawns < Word.top) :
    (hooks.Prompt → ∃ k', Kernel.onTimerInterrupt hooks k = .ok () k') ∧
      ∀ k', Kernel.onTimerInterrupt hooks k = .ok () k' →
        Interrupted hooks (k₀.asleepAfter hooks calls) k k' := by
  have hk := hrun.settled hq h₀ hwhole hup hspawns
  constructor
  · intro hp
    have hcarried : k.cpu.switches < Word.top := hk.carriedOut ▸ hswitches
    exact hrun.onTimerInterrupt_returns hq hp h₀ hword hk hoff hticks hspawns
      fun _ hticked _ => hticked.canSwitch hswitches hcarried
  · intro k' h
    obtain ⟨c, _, hc, _⟩ := hk.sound.current_runs
    obtain ⟨hscene, hsound', hagrees⟩ := hk.interrupt hq hc h
    obtain ⟨n, th, hn, hth, hruns⟩ := hsound'.current_runs
    have hstep : Call.perform hooks .onTimerInterrupt k = .ok .done k' :=
      Act.bind_pure_eq_ok_iff.mpr ⟨(), h, rfl⟩
    exact {
      tick := by
        obtain ⟨_, _, heq⟩ := hagrees
        rw [heq]
        rfl
      due := by
        rw [SleepRegistry.byTick_filter, ← hrun.sleepers_eq hq h₀ hspawns]
        rfl
      step := ⟨c, hc, hscene⟩
      runs := ⟨n, th, hn, hth, hruns⟩
      cached := (hrun.snoc trivial hstep).exact hq h₀
      rest := by
        rw [hc]
        exact hagrees }

/-- Three workers and the thread that booted: two workers sleep until the third tick and the thread that
booted until the fifth, and the third worker has just died. -/
def sleepyCalls : List (Call Unit) := [.init, .start, .create "first" 31 (), .create "second" 31 (),
  .create "third" 31 (), .sleepUntil 5, .sleepUntil 3, .sleepUntil 3, .exit, .advanceClock,
  .advanceClock]

/-- The third tick interrupts the idle thread: both workers wake, the first of them runs, and the third
one is removed. -/
theorem interrupt_is_one_step_idle : ∃ k k' : Kernel plainClient,
    plainKernel.after .plain (fun _ _ => true) sleepyCalls = some k ∧
    Kernel.onTimerInterrupt .plain k = .ok () k' ∧
    Interrupted .plain [⟨⟨1⟩, 5⟩, ⟨⟨3⟩, 3⟩, ⟨⟨4⟩, 3⟩] k k' ∧
    k.tables.current = some ⟨2⟩ ∧ k.tables.reclaim = [⟨5⟩] ∧ k'.tables.current = some ⟨3⟩ ∧
    k'.tables.ready.ids = [⟨4⟩] ∧ k'.tables.reclaim = [] := by
  have hchecks : (plainKernel.after .plain (fun _ _ => true) sleepyCalls).any (fun k =>
      k.initialized && decide (Maskable.level k.cpu = .off) && decide (k.clock.ticks < Word.top) &&
        decide (k.tables.switches < Word.top) && decide (k.spawns < Word.top) &&
          decide (k.tables.current = some ⟨2⟩ ∧ k.tables.reclaim = [⟨5⟩]) &&
            match Kernel.onTimerInterrupt .plain k with
            | .ok _ k' => decide (k'.tables.current = some ⟨3⟩ ∧ k'.tables.ready.ids = [⟨4⟩] ∧
                k'.tables.reclaim = [])
            | .error _ _ => false) = true := by decide +kernel
  have hwaiting : plainKernel.asleepAfter .plain sleepyCalls
      = [⟨⟨1⟩, 5⟩, ⟨⟨3⟩, 3⟩, ⟨⟨4⟩, 3⟩] := by decide +kernel
  obtain ⟨k, hk, hchecks⟩ := (Option.any_eq_true _ _).mp hchecks
  obtain ⟨hbefore, hafter⟩ := (Bool.and_eq_true _ _).mp hchecks
  simp only [Bool.and_eq_true, decide_eq_true_eq] at hbefore
  obtain ⟨⟨⟨⟨⟨hup, hoff⟩, hticks⟩, hswitches⟩, hspawns⟩, hcurrent, hdead⟩ := hbefore
  obtain ⟨hreturns, hstep⟩ := interrupt_is_one_step Hooks.queryOnly_plain ofConfig_standard
    (by decide) ((Run.of_after hk).mono fun _ _ _ => trivial) nofun hup hoff hticks hswitches
    hspawns
  obtain ⟨k', hk'⟩ := hreturns Hooks.prompt_plain
  rw [hk'] at hafter
  have hafter := of_decide_eq_true hafter
  exact ⟨k, k', hk, hk', hwaiting ▸ hstep k' hk', hcurrent, hdead, hafter⟩

end RoundRobin
