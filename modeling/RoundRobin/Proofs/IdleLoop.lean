import RoundRobin.Proofs.InterruptStep

/-!
# The idle loop

Each pass of the idle loop blocks, halts and is interrupted. As long as nobody is due the idle thread is
chosen again every time, by its own block and, when its slice is over, by the yield at the end of the
interrupt. The interrupt that makes somebody due hands over at once. So sleepers are never waited for
longer than they asked.
-/

namespace RoundRobin

variable {C : Client} {hooks : Hooks C}

/-! ## An interrupt of the idle thread, on scenes -/

namespace Scene

variable {β : Type} {s : Scene β} {c n : ThreadId} {now : Nat} {rest : List ThreadId}
  (timeSlice : Nat)

/-- While nobody is due, the idle thread goes on, whether its slice is over or not. -/
theorem interrupt_of_later (hc : s.current = some c) (hidle : s.idle = some c) (hqueue : s.queue = [])
    (hlater : ∀ x ∈ s.sleepers, now < x.wakeTick) :
    let s' := s.interrupt c .idle now timeSlice
    s'.current = some c ∧ s'.idle = some c ∧ s'.queue = [] ∧ s'.sleepers = s.sleepers ∧
      s'.stats = s.stats.plus .idle ∧ s'.switches = s.switches := by
  unfold interrupt
  dsimp only
  rw [wake_of_later hlater]
  split
  · simp [yield, bury, requeue, runNext, next, charge, hidle, hqueue]
  · exact ⟨hc, hidle, hqueue, rfl, rfl, rfl⟩

/-- As soon as somebody is due, the first of those takes over, and the others wait in the queue. -/
theorem interrupt_of_due (hidle : s.idle = some c) (hqueue : s.queue = [])
    (hdue : s.due now = n :: rest) (hawake : c ∉ s.due now) (halive : c ∉ s.dead) :
    let s' := s.interrupt c .idle now timeSlice
    s'.current = some n ∧ s'.queue = rest ∧
      s'.thread c = (s.thread c).map (fun th => { th with status := .ready, link := .unlinked }) ∧
      s'.sleepers = s.sleepers.filter (fun x => now < x.wakeTick) ∧
      s'.stats = s.stats.plus .idle ∧ s'.switches = s.switches + 1 := by
  have hpreempts : s.preempts c now timeSlice = true := by
    rw [preempts, hidle, hdue]
    simp
  rw [hdue, List.mem_cons, not_or] at hawake
  unfold interrupt
  dsimp only
  rw [if_pos hpreempts]
  simp [yield, bury, requeue, runNext, next, charge, wake, hidle, hqueue, hdue, hawake, halive,
    Function.comp_def]

end Scene

/-! ## Cores whose idle thread runs -/

namespace Core

variable {s s' : Core C} {c : Call C.Body} {i : ThreadId}

/-- The idle thread runs and nobody is ready. A switch can still be counted. -/
structure Idling (i : ThreadId) (s : Core C) : Prop where
  lasting : Lasting s
  up : s.initialized = true
  spawns : s.spawns < Word.top
  word : s.config.timeSlice ≤ Word.top32
  counted : s.tables.switches < Word.top
  current : s.tables.current = some i
  idle : s.tables.idle = some i
  queue : s.tables.ready.ids = []

theorem Idling.sound (h : Idling i s) : s.tables.Sound := h.lasting.sound h.up h.spawns

/-- Ticks that are charged to somebody are ticks. -/
theorem Idling.stats_lt (h : Idling i s) (hticks : s.ticks < Word.top) :
    s.tables.stats.idle + s.tables.stats.kernel + s.tables.stats.user < Word.top :=
  Nat.lt_of_le_of_lt h.lasting.counted.stats hticks

theorem Idling.upright (h : Idling i s) (hticks : s.ticks < Word.top) : Upright s where
  up := h.up
  outside := h.lasting.counted.outside
  readable := ⟨h.sound, (h.lasting.accounted.balanced h.spawns).housed,
    Nat.le_of_lt (h.stats_lt hticks)⟩

theorem Idling.able (h : Idling i s) (hticks : s.ticks < Word.top) : Able s where
  toUpright := h.upright hticks
  attended := by
    intro j hj
    rw [h.idle, Option.some.injEq] at hj
    obtain ⟨c, th, hc, hth, hruns⟩ := h.sound.current_runs
    rw [h.current, Option.some.injEq] at hc
    exact ⟨th, hj ▸ hc ▸ hth, by rw [hruns]; exact nofun⟩
  idle := Option.isSome_iff_exists.mpr ⟨i, h.idle⟩
  counted := h.counted
  carriedOut := h.lasting.carriedOut ▸ h.counted

/-- `s'` is what `n` interrupts of the idle thread made of `s`, without a switch. -/
structure Idled (i : ThreadId) (n : Nat) (s s' : Core C) : Prop where
  idling : Idling i s'
  config : s'.config = s.config
  ticks : s'.ticks = s.ticks + n
  sleepers : s'.tables.sleepers.sleepers = s.tables.sleepers.sleepers
  stats : s'.tables.stats = { s.tables.stats with idle := s.tables.stats.idle + n }
  switches : s'.tables.switches = s.tables.switches

theorem Idled.refl (h : Idling i s) : Idled i 0 s s := ⟨h, rfl, rfl, rfl, rfl, rfl⟩

theorem Idled.trans {s₁ : Core C} {n m : Nat} (h : Idled i n s s₁) (h' : Idled i m s₁ s') :
    Idled i (n + m) s s' where
  idling := h'.idling
  config := h'.config.trans h.config
  ticks := by rw [h'.ticks, h.ticks, Nat.add_assoc]
  sleepers := h'.sleepers.trans h.sleepers
  stats := by rw [h'.stats, h.stats, Nat.add_assoc]
  switches := h'.switches.trans h.switches

/-- An idle thread that blocks is chosen again. -/
theorem Idling.left {d : Dispatch} {t : Tables C.Body} (h : Idling i s)
    (hl : s.tables.leave .block = .ok (d, t)) : Idled i 0 s (s.left d t) := by
  have hparting := Tables.parting_of_leave hl
  have hprevious : d.previous = i := Option.some.inj (hparting.previous.symm.trans h.current)
  have hnext : d.next = i := by
    have hup : s.tables.ready.ids.head?.or s.tables.idle = some d.next := hparting.next
    rw [h.queue, h.idle] at hup
    exact (Option.some.inj hup).symm
  have hsame : d.previous = d.next := hprevious.trans hnext.symm
  have hswitches : t.switches = s.tables.switches := by rw [hparting.switches, if_pos hsame]
  have heffect : Effect s .block (s.left d t) := .leave rfl hl ⟨fun _ => rfl, nofun⟩
  exact {
    idling := {
      lasting := h.lasting.effect (c := .block) nofun heffect
      up := h.up
      spawns := h.spawns
      word := h.word
      counted := hswitches ▸ h.counted
      current := hnext ▸ hparting.current
      idle := hparting.idle.trans h.idle
      queue := by
        have hqueue : t.ready.ids = s.tables.ready.ids.tail := hparting.queue
        rw [h.queue] at hqueue
        exact hqueue }
    config := rfl
    ticks := rfl
    sleepers := congrArg (·.sleepers) (hparting.sleepers : t.sleepers = s.tables.sleepers)
    stats := hparting.stats
    switches := hswitches }

/-- `s'` is what `m` interrupts made of `s`, the last of which was the first one to wake anybody: the
first of the woken has relieved the idle thread. -/
structure Relieved (i n : ThreadId) (rest : List ThreadId) (m : Nat) (s s' : Core C) : Prop where
  ticks : s'.ticks = s.ticks + m
  current : s'.tables.current = some n
  runs : ∃ th, s'.tables.threads.find? n = some th ∧ th.status = .running
  queue : s'.tables.ready.ids = rest
  ready : ∀ j ∈ rest, ∃ th, s'.tables.threads.find? j = some th ∧ th.status = .ready
  /-- The idle thread could run, and is in no container. -/
  idle : ∃ th, s'.tables.threads.find? i = some th ∧ th.status = .ready ∧ th.link = .unlinked
  unqueued : i ∉ s'.tables.ready.ids
  /-- Those whose tick has not come sleep on. -/
  sleepers : s'.tables.sleepers.sleepers
    = s.tables.sleepers.sleepers.filter fun x => s'.ticks < x.wakeTick
  stats : s'.tables.stats = { s.tables.stats with idle := s.tables.stats.idle + m }
  /-- Both the tables and the processor count one switch. -/
  counted : s'.tables.switches = s.tables.switches + 1
  carriedOut : s'.switches = s.switches + 1

theorem Idled.carriedOut {n : Nat} (h : Idled i n s s') (hs : Idling i s) :
    s'.switches = s.switches := by
  rw [h.idling.lasting.carriedOut, h.switches, hs.lasting.carriedOut]

/-- Interrupts that wake nobody, and one that does. -/
theorem Idled.relieved {s₁ : Core C} {n : ThreadId} {rest : List ThreadId} {p m : Nat}
    (h : Idled i p s s₁) (hs : Idling i s) (h' : Relieved i n rest m s₁ s') :
    Relieved i n rest (p + m) s s' where
  ticks := by rw [h'.ticks, h.ticks, Nat.add_assoc]
  current := h'.current
  runs := h'.runs
  queue := h'.queue
  ready := h'.ready
  idle := h'.idle
  unqueued := h'.unqueued
  sleepers := by rw [h'.sleepers, h.sleepers]
  stats := by rw [h'.stats, h.stats, Nat.add_assoc]
  counted := by rw [h'.counted, h.switches]
  carriedOut := by rw [h'.carriedOut, h.carriedOut hs]

end Core

/-! ## One pass -/

namespace Kernel

open Act

variable {k k' k₁ : Kernel C} {i : ThreadId}

/-- The processor waits, with interrupts on. -/
theorem halt_of_current (hc : k.tables.current = some i) : (halt : Act C Unit) k
    = .ok () { k with cpu := Maskable.halt k.cpu, history := .halted i :: k.history } := by
  have hread : inspect Tables.currentId k = .ok i k :=
    inspect_eq_ok_iff.mpr ⟨Tables.currentId_eq_ok_iff.mpr hc, rfl⟩
  unfold halt
  rw [bind_of_ok hread]
  rfl

/-- The idle thread may block, and is then chosen again. -/
theorem block_of_idling (hq : hooks.QueryOnly) (hp : hooks.Prompt) (h : k.core.Idling i)
    (hoff : Maskable.level k.cpu = .off) (hticks : k.clock.ticks < Word.top) :
    ∃ k', block hooks k = .ok () k' ∧ Core.Idled i 0 k.core k'.core := by
  have hends := block_ends hq hp (h.able hticks)
  rw [hoff] at hends
  obtain ⟨_, k', hblock⟩ := hends
  obtain ⟨d, t, hleave, hcore⟩ := core_of_block hq hblock
  exact ⟨k', hblock, hcore ▸ h.left hleave⟩

theorem onTimerInterrupt_of_idling (hq : hooks.QueryOnly) (hp : hooks.Prompt) (h : k.core.Idling i)
    (hoff : Maskable.level k.cpu = .off) (hticks : k.clock.ticks < Word.top) :
    ∃ k', onTimerInterrupt hooks k = .ok () k' := by
  have hslice : k.tables.sliceTicks < Word.top32 := Nat.lt_of_lt_of_le h.lasting.paced.slice h.word
  have hends := onTimerInterrupt_ends hq hp (h.upright hticks) hticks (h.stats_lt hticks) hslice
    fun s hticked _ => hticked.canSwitch h.counted (h.lasting.carriedOut ▸ h.counted)
  rw [hoff] at hends
  obtain ⟨_, k', hinterrupt⟩ := hends
  exact ⟨k', hinterrupt⟩

/-- The kernel when the processor has waited on behalf of a thread and the interrupt has come. -/
def halting (i : ThreadId) (k : Kernel C) : Kernel C :=
  { k with
    cpu := Maskable.setLevel .off (Maskable.halt k.cpu)
    history := .halted i :: k.history }

theorem core_halting (i : ThreadId) (k : Kernel C) : (k.halting i).core = k.core :=
  core_record rfl rfl { k with cpu := Maskable.setLevel .off (Maskable.halt k.cpu) }

/-- A pass of the idle loop comes to its interrupt as it began, and ends with interrupts on. -/
theorem idlePass_of_idling (hq : hooks.QueryOnly) (hp : hooks.Prompt) (h : k.core.Idling i)
    (hticks : k.clock.ticks < Word.top) : ∃ k₁ k₂ : Kernel C, Core.Idled i 0 k.core k₁.core ∧
      onTimerInterrupt hooks k₁ = .ok () k₂ ∧ idlePass hooks (deliverInterrupt hooks) k
        = .ok () { k₂ with cpu := Maskable.setLevel .on k₂.cpu } := by
  have hmasked : ({ k with cpu := Maskable.setLevel .off k.cpu } : Kernel C).core = k.core :=
    core_setLevel .off k
  obtain ⟨k₃, hblock, hblocked⟩ := block_of_idling
    (k := { k with cpu := Maskable.setLevel .off k.cpu }) hq hp (hmasked.symm ▸ h)
    (FlagCpu.level_setLevel .off k.cpu) hticks
  have hhalt := halt_of_current (k := k₃) hblocked.idling.current
  rw [hmasked, ← core_halting i k₃] at hblocked
  have hlater : (k₃.halting i).clock.ticks < Word.top :=
    Nat.lt_of_le_of_lt (Nat.le_of_eq hblocked.ticks) hticks
  obtain ⟨k₂, hinterrupt⟩ := onTimerInterrupt_of_idling hq hp hblocked.idling
    (FlagCpu.level_setLevel .off _) hlater
  refine ⟨_, k₂, hblocked, hinterrupt, ?_⟩
  unfold idlePass deliverInterrupt
  rw [bind_of_ok (setLevel_apply .off k), bind_of_ok hblock, bind_of_ok hhalt]
  exact masked_of_ok hinterrupt

/-! ## The interrupt of a pass -/

/-- The idle thread is charged for an interrupt that it meets. -/
theorem kindAt_of_idling (h : k.core.Idling i) : k.kindAt hooks = .idle := by
  have hruns : k.tables.idleRuns = true :=
    (Tables.idleRuns_eq h.current).trans (Tables.isIdle_iff.mpr h.idle)
  rw [kindAt, if_pos hruns]

/-- The interrupt of an idle kernel, on its scene. -/
theorem scene_of_idling {u : Unit} (hq : hooks.QueryOnly) (h : k.core.Idling i)
    (hinterrupt : onTimerInterrupt hooks k = .ok u k') : k'.tables.scene
      = k.tables.scene.interrupt i .idle (k.clock.ticks + 1) k.config.timeSlice := by
  obtain ⟨hscene, _, _⟩ := (settled_of_lasting h.lasting h.up h.spawns).interrupt hq h.current hinterrupt
  rw [kindAt_of_idling h] at hscene
  exact hscene

/-- While nobody is due, an interrupt leaves the kernel idle. -/
theorem idled_of_interrupt {u : Unit} (hq : hooks.QueryOnly) (h : k.core.Idling i)
    (hlater : ∀ x ∈ k.tables.sleepers.sleepers, k.clock.ticks + 1 < x.wakeTick)
    (hinterrupt : onTimerInterrupt hooks k = .ok u k') : Core.Idled i 1 k.core k'.core := by
  have heffect := effect_of_onTimerInterrupt hq hinterrupt
  have hscene := scene_of_idling hq h hinterrupt
  obtain ⟨hcurrent, hidle, hqueue, hsleepers, hstats, hswitches⟩ :=
    Scene.interrupt_of_later (s := k.tables.scene) k.config.timeSlice h.current h.idle h.queue hlater
  rw [← hscene] at hcurrent hidle hqueue hsleepers hstats hswitches
  have hconfig : k'.core.config = k.core.config := (Core.kept_config k.config).effect rfl heffect
  exact {
    idling := {
      lasting := h.lasting.effect (c := .onTimerInterrupt) nofun heffect
      up := Core.kept_initialized.effect h.up heffect
      spawns := heffect.spawns_of_timer rfl ▸ h.spawns
      word := hconfig ▸ h.word
      counted := Nat.lt_of_le_of_lt (Nat.le_of_eq hswitches) h.counted
      current := hcurrent
      idle := hidle
      queue := hqueue }
    config := hconfig
    ticks := heffect.ticks.2 nofun
    sleepers := hsleepers
    stats := hstats
    switches := hswitches }

/-- Who is due is neither the idle thread that runs nor dead. -/
theorem idle_awake (h : k.core.Idling i) (now : Nat) :
    i ∉ k.tables.scene.due now ∧ i ∉ k.tables.scene.dead := by
  refine ⟨fun hi => ?_, h.sound.current_not_mem h.current (l := .reclaim) nofun⟩
  obtain ⟨x, hx, hthread⟩ := List.mem_map.mp hi
  exact (h.sound.sleeps (List.mem_filter.mp hx).1).notIdle (hthread ▸ h.idle)

/-- An interrupt that wakes somebody ends the idle time. -/
theorem relieved_of_interrupt {u : Unit} {n : ThreadId} {rest : List ThreadId} (hq : hooks.QueryOnly)
    (h : k.core.Idling i) (hdue : k.tables.scene.due (k.clock.ticks + 1) = n :: rest)
    (hinterrupt : onTimerInterrupt hooks k = .ok u k') :
    Core.Relieved i n rest 1 k.core k'.core := by
  have heffect := effect_of_onTimerInterrupt hq hinterrupt
  have hscene := scene_of_idling hq h hinterrupt
  obtain ⟨_, hsound, _⟩ := (settled_of_lasting h.lasting h.up h.spawns).interrupt hq h.current hinterrupt
  obtain ⟨hawake, halive⟩ := idle_awake h (k.clock.ticks + 1)
  obtain ⟨hcurrent, hqueue, hthread, hsleepers, hstats, hswitches⟩ :=
    Scene.interrupt_of_due (s := k.tables.scene) k.config.timeSlice h.idle h.queue hdue hawake halive
  rw [← hscene] at hcurrent hqueue hthread hsleepers hstats hswitches
  have hticks : k'.core.ticks = k.core.ticks + 1 := heffect.ticks.2 nofun
  have hlasting := h.lasting.effect (c := .onTimerInterrupt) nofun heffect
  exact {
    ticks := hticks
    current := hcurrent
    runs := by
      obtain ⟨c, th, hc, hth, hruns⟩ := hsound.current_runs
      rw [show k'.tables.current = some n from hcurrent, Option.some.injEq] at hc
      exact ⟨th, hc ▸ hth, hruns⟩
    queue := hqueue
    ready := fun j hj => by
      obtain ⟨th, hth, hlink⟩ := (hsound.mem_iff_link (l := .ready) nofun).mp (hqueue ▸ hj)
      exact ⟨th, hth, ((hsound.status_of_link hth).1 hlink).1⟩
    idle := by
      obtain ⟨c, th, hc, hth, _⟩ := h.sound.current_runs
      rw [h.current, Option.some.injEq] at hc
      rw [show k.tables.scene.thread i = some th from hc ▸ hth] at hthread
      exact ⟨_, hthread, rfl, rfl⟩
    unqueued := by
      rw [hdue] at hawake
      rw [show k'.core.tables.ready.ids = rest from hqueue]
      exact fun hi => hawake (List.mem_cons_of_mem n hi)
    sleepers := by
      rw [hticks]
      exact hsleepers
    stats := hstats
    counted := hswitches
    carriedOut := by
      rw [hlasting.carriedOut, h.lasting.carriedOut]
      exact hswitches }

/-! ## The loop -/

/-- Passes are made one after the other. -/
theorem idlePasses_succ {atHalt : Act C Unit} {n : Nat} (h : idlePasses hooks atHalt n k = .ok () k₁)
    (hpass : idlePass hooks atHalt k₁ = .ok () k') : idlePasses hooks atHalt (n + 1) k = .ok () k' := by
  induction n generalizing k with
  | zero =>
    obtain ⟨_, rfl⟩ := pure_eq_ok_iff.mp h
    exact bind_eq_ok_iff.mpr ⟨(), _, hpass, rfl⟩
  | succ n ih =>
    obtain ⟨_, k₂, hfirst, hrest⟩ := bind_eq_ok_iff.mp h
    exact bind_eq_ok_iff.mpr ⟨(), k₂, hfirst, ih hrest⟩

/-- Passes of the idle loop whose interrupts wake nobody leave the kernel idle. -/
theorem idled_of_idlePasses (hq : hooks.QueryOnly) (hp : hooks.Prompt) (h : k.core.Idling i)
    (n : Nat) (hticks : k.clock.ticks + n ≤ Word.top)
    (hlater : ∀ x ∈ k.tables.sleepers.sleepers, 0 < n → k.clock.ticks + n < x.wakeTick) :
    ∃ k', idlePasses hooks (deliverInterrupt hooks) n k = .ok () k' ∧
      Core.Idled i n k.core k'.core := by
  induction n with
  | zero => exact ⟨k, rfl, .refl h⟩
  | succ n ih =>
    obtain ⟨k₁, hpasses, hidled⟩ := ih (by omega) fun x hx _ => by
      have := hlater x hx (Nat.succ_pos n)
      omega
    have hticks₁ : k₁.clock.ticks = k.clock.ticks + n := hidled.ticks
    obtain ⟨k₂, k₃, hsame, hinterrupt, hpass⟩ := idlePass_of_idling hq hp hidled.idling
      (by rw [hticks₁]; omega)
    have hbefore := hidled.trans hsame
    have hticks₂ : k₂.clock.ticks = k.clock.ticks + n := hbefore.ticks
    refine ⟨_, idlePasses_succ hpasses hpass, ?_⟩
    rw [core_setLevel]
    refine hbefore.trans (idled_of_interrupt hq hbefore.idling (fun x hx => ?_) hinterrupt)
    rw [show k₂.tables.sleepers.sleepers = k.tables.sleepers.sleepers from hbefore.sleepers] at hx
    rw [hticks₂, Nat.add_assoc]
    exact hlater x hx (Nat.succ_pos n)

/-- The pass whose interrupt is the first one to wake anybody is the last one of the idle thread. -/
theorem relieved_of_idlePasses {n : ThreadId} {rest : List ThreadId} (hq : hooks.QueryOnly)
    (hp : hooks.Prompt) (h : k.core.Idling i) (p : Nat) (hticks : k.clock.ticks + p < Word.top)
    (hlater : ∀ x ∈ k.tables.sleepers.sleepers, 0 < p → k.clock.ticks + p < x.wakeTick)
    (hdue : k.tables.scene.due (k.clock.ticks + (p + 1)) = n :: rest) :
    ∃ k', idlePasses hooks (deliverInterrupt hooks) (p + 1) k = .ok () k' ∧
      Core.Relieved i n rest (p + 1) k.core k'.core ∧ Maskable.level k'.cpu = .on := by
  obtain ⟨k₁, hpasses, hidled⟩ := idled_of_idlePasses hq hp h p (Nat.le_of_lt hticks) hlater
  have hticks₁ : k₁.clock.ticks < Word.top := Nat.lt_of_le_of_lt (Nat.le_of_eq hidled.ticks) hticks
  obtain ⟨k₂, k₃, hsame, hinterrupt, hpass⟩ := idlePass_of_idling hq hp hidled.idling hticks₁
  have hbefore := hidled.trans hsame
  have hdue₂ : k₂.tables.scene.due (k₂.clock.ticks + 1) = n :: rest := by
    rw [show k₂.clock.ticks = k.clock.ticks + p from hbefore.ticks, Nat.add_assoc, ← hdue]
    unfold Scene.due
    rw [show k₂.tables.scene.sleepers = k.tables.scene.sleepers from hbefore.sleepers]
  refine ⟨_, idlePasses_succ hpasses hpass, ?_, FlagCpu.level_setLevel .on k₃.cpu⟩
  rw [core_setLevel]
  exact hbefore.relieved h (relieved_of_interrupt hq hbefore.idling hdue₂ hinterrupt)

end Kernel

/-! ## Every run -/

variable {config : Config} {client : C.State} {k₀ k : Kernel C} {calls : List (Call C.Body)}
  {allowed : Kernel C → Call C.Body → Prop} {i : ThreadId}

theorem Run.idling (hq : hooks.QueryOnly) (h₀ : Kernel.ofConfig config client = .ok k₀)
    (hword : config.timeSlice ≤ Word.top32) (hrun : Run hooks allowed k₀ calls k)
    (hwhole : .timerInterrupt ∉ calls) (hspawns : k.spawns < Word.top)
    (hdecisions : k.decisions.length < Word.top) (hidle : k.tables.idle = some i)
    (hc : k.tables.current = some i) (hqueue : k.tables.ready.ids = []) : k.core.Idling i where
  lasting := hrun.lasting hq h₀ hwhole
  up := (hrun.coherent hq h₀).up hspawns fun hblank =>
    absurd (hidle.symm.trans hblank.idle) nofun
  spawns := hspawns
  word := Nat.le_trans (Nat.le_of_eq (congrArg (·.timeSlice) (hrun.config_eq hq h₀))) hword
  counted := Nat.lt_of_le_of_lt (hrun.lasting hq h₀ hwhole).counted.counted hdecisions
  current := hc
  idle := hidle
  queue := hqueue

/-- Those who are due in a state of a run, in the order in which they are woken. -/
theorem Run.due_eq (hq : hooks.QueryOnly) (h₀ : Kernel.ofConfig config client = .ok k₀)
    (hrun : Run hooks allowed k₀ calls k) (hspawns : k.spawns < Word.top) (now : Nat) :
    k.tables.scene.due now = (SleepRegistry.byTick ((k₀.asleepAfter hooks calls).filter
      fun x => x.wakeTick ≤ now)).map (·.thread) := by
  rw [SleepRegistry.byTick_filter, ← hrun.sleepers_eq hq h₀ hspawns]
  rfl

/-- `m` passes of the idle loop in `k`, where those in `waiting` sleep, listed in the order in which they
fell asleep. The idle thread `i` runs on until the last pass, which wakes those whose tick has come. -/
structure WakesOnTime (hooks : Hooks C) (waiting : List Sleeper) (i : ThreadId) (m : Nat)
    (k : Kernel C) : Prop where
  idles : ∀ j, j < m → ∃ k', Kernel.idlePasses hooks (Kernel.deliverInterrupt hooks) j k = .ok () k' ∧
    k'.tables.current = some i ∧ k'.tables.switches = k.tables.switches ∧
    k'.cpu.switches = k.cpu.switches
  wakes : ∃ k' n rest, Kernel.idlePasses hooks (Kernel.deliverInterrupt hooks) m k = .ok () k' ∧
    (SleepRegistry.byTick (waiting.filter fun x => x.wakeTick ≤ k'.clock.ticks)).map (·.thread)
      = n :: rest ∧
    Core.Relieved i n rest m k.core k'.core ∧ Maskable.level k'.cpu = .on

/-- Whenever the idle thread runs while somebody sleeps, its loop wakes the first sleepers at their tick,
or with the next interrupt when that tick has passed. -/
theorem idle_loop_wakes_on_time {x : Sleeper} (hq : hooks.QueryOnly) (hp : hooks.Prompt)
    (h₀ : Kernel.ofConfig config client = .ok k₀) (hword : config.timeSlice ≤ Word.top32)
    (hrun : Run hooks anyCall k₀ calls k) (hwhole : .timerInterrupt ∉ calls)
    (hspawns : k.spawns < Word.top) (hdecisions : k.decisions.length < Word.top)
    (hidle : k.tables.idle = some i) (hc : k.tables.current = some i)
    (hqueue : k.tables.ready.ids = []) (hticks : k.clock.ticks < Word.top)
    (hx : x ∈ k₀.asleepAfter hooks calls)
    (hfirst : ∀ y ∈ k₀.asleepAfter hooks calls, x.wakeTick ≤ y.wakeTick)
    (hw : x.wakeTick ≤ Word.top) :
    WakesOnTime hooks (k₀.asleepAfter hooks calls) i (max 1 (x.wakeTick - k.clock.ticks)) k := by
  have hidling := hrun.idling hq h₀ hword hwhole hspawns hdecisions hidle hc hqueue
  have hearliest : ∀ y ∈ k.tables.sleepers.sleepers, x.wakeTick ≤ y.wakeTick := by
    intro y hy
    rw [hrun.sleepers_eq hq h₀ hspawns] at hy
    exact hfirst y ((SleepRegistry.perm_byTick _).mem_iff.mp hy)
  -- before the last pass the first tick has not come
  obtain ⟨p, hp₁⟩ : ∃ p, max 1 (x.wakeTick - k.clock.ticks) = p + 1 :=
    ⟨max 1 (x.wakeTick - k.clock.ticks) - 1, by omega⟩
  have hlater : ∀ j, j ≤ p → ∀ y ∈ k.tables.sleepers.sleepers, 0 < j →
      k.clock.ticks + j < y.wakeTick := by
    intro j hj y hy hpos
    have := hearliest y hy
    omega
  rw [hp₁]
  constructor
  · intro j hj
    obtain ⟨k', hpasses, hidled⟩ := Kernel.idled_of_idlePasses hq hp hidling j (by omega)
      (hlater j (by omega))
    exact ⟨k', hpasses, hidled.idling.current, hidled.switches, hidled.carriedOut hidling⟩
  · have hdue := hrun.due_eq hq h₀ hspawns (k.clock.ticks + (p + 1))
    cases hwoken : k.tables.scene.due (k.clock.ticks + (p + 1)) with
    | nil =>
      -- the first one is due at the latest now
      have hmem : x ∈ (k₀.asleepAfter hooks calls).filter fun y =>
          y.wakeTick ≤ k.clock.ticks + (p + 1) :=
        List.mem_filter.mpr ⟨hx, decide_eq_true (by omega)⟩
      have hthread := List.mem_map_of_mem (f := (·.thread))
        ((SleepRegistry.perm_byTick _).mem_iff.mpr hmem)
      rw [← hdue, hwoken] at hthread
      cases hthread
    | cons n rest =>
      obtain ⟨k', hpasses, hrelieved, hon⟩ := Kernel.relieved_of_idlePasses hq hp hidling p
        (by omega) (hlater p (Nat.le_refl p)) hwoken
      refine ⟨k', n, rest, hpasses, ?_, hrelieved, hon⟩
      rw [show k'.clock.ticks = k.clock.ticks + (p + 1) from hrelieved.ticks, ← hdue, hwoken]

/-- A kernel whose slices last one tick. -/
def shortSliceKernel : Kernel plainClient :=
  { plainKernel with
    config := { timerHz := 100, timeSlice := 1, maxThreads := 64, pageSize := 16384 } }

/-- Two workers sleep until the third tick and the thread that booted until the fifth, and the third
worker has just died. -/
def dozingCalls : List (Call Unit) := [.init, .start, .create "first" 31 (), .create "second" 31 (),
  .create "third" 31 (), .sleepUntil 5, .sleepUntil 3, .sleepUntil 3, .exit]

/-- The slice of the idle thread is over with every tick, and there is no switch before the third. -/
theorem idle_loop_wakes_on_time_third_tick : ∃ k k' : Kernel plainClient,
    shortSliceKernel.after .plain (fun _ _ => true) dozingCalls = some k ∧
    WakesOnTime .plain [⟨⟨1⟩, 5⟩, ⟨⟨3⟩, 3⟩, ⟨⟨4⟩, 3⟩] ⟨2⟩ 3 k ∧
    Kernel.idlePasses .plain (Kernel.deliverInterrupt .plain) 3 k = .ok () k' ∧
    k'.tables.current = some ⟨3⟩ ∧ k'.tables.ready.ids = [⟨4⟩] := by
  have hchecks : (shortSliceKernel.after .plain (fun _ _ => true) dozingCalls).any (fun k =>
      decide (k.spawns < Word.top) && decide (k.decisions.length < Word.top) &&
        decide (k.tables.idle = some ⟨2⟩ ∧ k.tables.current = some ⟨2⟩) &&
          decide (k.tables.ready.ids = []) && decide (k.clock.ticks = 0) &&
            match Kernel.idlePasses .plain (Kernel.deliverInterrupt .plain) 3 k with
            | .ok _ k' => decide (k'.tables.current = some ⟨3⟩ ∧ k'.tables.ready.ids = [⟨4⟩])
            | .error _ _ => false) = true := by decide +kernel
  have hwaiting : shortSliceKernel.asleepAfter .plain dozingCalls
      = [⟨⟨1⟩, 5⟩, ⟨⟨3⟩, 3⟩, ⟨⟨4⟩, 3⟩] := by decide +kernel
  obtain ⟨k, hk, hchecks⟩ := (Option.any_eq_true _ _).mp hchecks
  obtain ⟨hbefore, hafter⟩ := (Bool.and_eq_true _ _).mp hchecks
  simp only [Bool.and_eq_true, decide_eq_true_eq] at hbefore
  obtain ⟨⟨⟨⟨hspawns, hdecisions⟩, hidle, hc⟩, hqueue⟩, hticks⟩ := hbefore
  have h₀ : Kernel.ofConfig shortSliceKernel.config () = .ok shortSliceKernel := rfl
  have hwakes := idle_loop_wakes_on_time (x := ⟨⟨3⟩, 3⟩) Hooks.queryOnly_plain Hooks.prompt_plain h₀
    (by decide) ((Run.of_after hk).mono fun _ _ _ => trivial) nofun hspawns
    hdecisions hidle hc hqueue (by rw [hticks]; decide) (hwaiting ▸ by decide)
    (hwaiting ▸ by decide) (by decide)
  rw [hwaiting, hticks] at hwakes
  have hthree : WakesOnTime .plain [⟨⟨1⟩, 5⟩, ⟨⟨3⟩, 3⟩, ⟨⟨4⟩, 3⟩] ⟨2⟩ 3 k := hwakes
  obtain ⟨k', _, _, hk', _, _, _⟩ := hthree.wakes
  rw [hk'] at hafter
  obtain ⟨hcurrent, hready⟩ := of_decide_eq_true hafter
  exact ⟨k, k', hk, hthree, hk', hcurrent, hready⟩

end RoundRobin
