import RoundRobin.Proofs.Kernel.Returns

/-!
# Only callers stop the machine

A call on a started kernel stops the machine in one case: its caller broke a rule that the call checks.
`refusal` lists these rules call by call. No other check can fail, whatever was called before, so long
as interrupts are delivered whole, the idle thread does not exit and no count comes to its last word.
-/

namespace RoundRobin

variable {C : Client} {hooks : Hooks C} {k : Kernel C}

/-! ## The rules for callers -/

/-- Whether a fault tells of a rule for callers. All others would tell of a defect of the kernel. -/
def Fault.isCallers : Fault → Bool
  | bringUpUnmasked => true
  | blockUnmasked => true
  | noThread _ => true
  | unblockNotBlocked _ => true
  | unblockSleeping _ => true
  | idleSleep => true
  | sleepMasked => true
  | timerUnmasked => true
  | zeroDenominator => true
  | coarseDenominator => true
  | _ => false

/-- Why a call is refused, if its caller broke a rule. -/
def Kernel.refusal (k : Kernel C) : Call C.Body → Option Fault
  | .init => if Maskable.level k.cpu = .on then some .bringUpUnmasked else none
  | .block => if Maskable.level k.cpu = .on then some .blockUnmasked else none
  | .unblock id => k.tables.unblockRefusal id
  | .sleepUntil _ => if k.tables.idleRuns then some .idleSleep else none
  | .sleep _ =>
    if Maskable.level k.cpu = .off then some .sleepMasked
    else if k.tables.idleRuns then some .idleSleep
    else none
  | .realTimeSleep num denom => k.waitRefusal num denom
  | .sleepMillis n => k.waitRefusal n 1000
  | .sleepMicros n => k.waitRefusal n 1000000
  | .sleepNanos n => k.waitRefusal n 1000000000
  | .sleepFor d => k.waitRefusal d.nanos 1000000000
  | .timerInterrupt => if Maskable.level k.cpu = .on then some .timerUnmasked else none
  | .onTimerInterrupt => if Maskable.level k.cpu = .on then some .timerUnmasked else none
  | _ => none

/-- A fault that a call is refused with is about its caller. -/
def blamesCaller (c : Call C.Body) (e : Fault) : Prop :=
  e.isCallers = true ∧ ∀ id, e = .noThread id → c = .unblock id

theorem blamesCaller_of_waitRefusal (num denom : Nat) {c : Call C.Body} {e : Fault}
    (h : k.waitRefusal num denom = some e) : blamesCaller c e := by
  unfold Kernel.waitRefusal Clock.toTicks Delay.subTickLoops at h
  by_cases hzero : denom = 0
  · rw [if_pos hzero] at h
    cases h
    exact ⟨rfl, nofun⟩
  · rw [if_neg hzero] at h
    dsimp only at h
    split at h
    · cases h; exact ⟨rfl, nofun⟩
    · split at h
      · split at h
        · cases h; exact ⟨rfl, nofun⟩
        · cases h
      · split at h
        · next hloops =>
          cases h
          split at hloops
          · cases hloops; exact ⟨rfl, nofun⟩
          · split at hloops
            · -- a denominator that is a multiple of a thousand, and not zero
              omega
            · cases hloops
        · cases h

theorem blamesCaller_of_refusal {c : Call C.Body} {e : Fault} (h : k.refusal c = some e) :
    blamesCaller c e := by
  have hcheck : ∀ {p : Prop} [Decidable p] {f : Fault}, (if p then some f else none) = some e →
      f = e := by
    intro p _ f hif
    split at hif
    · exact Option.some.inj hif
    · cases hif
  cases c with
  | init => exact hcheck h ▸ ⟨rfl, nofun⟩
  | block => exact hcheck h ▸ ⟨rfl, nofun⟩
  | sleepUntil => exact hcheck h ▸ ⟨rfl, nofun⟩
  | timerInterrupt => exact hcheck h ▸ ⟨rfl, nofun⟩
  | onTimerInterrupt => exact hcheck h ▸ ⟨rfl, nofun⟩
  | sleep =>
    unfold Kernel.refusal at h
    dsimp only at h
    split at h
    · cases h; exact ⟨rfl, nofun⟩
    · exact hcheck h ▸ ⟨rfl, nofun⟩
  | unblock id =>
    unfold Kernel.refusal Tables.unblockRefusal at h
    dsimp only at h
    split at h
    · cases h
      exact ⟨rfl, fun i hi => by cases hi; rfl⟩
    · split at h
      · cases h; exact ⟨rfl, nofun⟩
      · exact hcheck h ▸ ⟨rfl, nofun⟩
  | realTimeSleep num denom => exact blamesCaller_of_waitRefusal num denom h
  | sleepMillis n => exact blamesCaller_of_waitRefusal n 1000 h
  | sleepMicros n => exact blamesCaller_of_waitRefusal n 1000000 h
  | sleepNanos n => exact blamesCaller_of_waitRefusal n 1000000000 h
  | sleepFor d => exact blamesCaller_of_waitRefusal d.nanos 1000000000 h
  | start => cases h
  | create => cases h
  | yieldNow => cases h
  | exit => cases h
  | setPriority => cases h
  | setLevel => cases h
  | advanceClock => cases h
  | setLoopsPerTick => cases h
  | dumpStats => cases h
  | timerStats => cases h
  | installHooks => cases h

/-! ## Every call ends as its rules say -/

theorem init_ends (hup : k.initialized = true) : (Kernel.init : Act C _).Ends k
    (if Maskable.level k.cpu = .on then some .bringUpUnmasked else none) := by
  unfold Kernel.init
  apply Act.requireMasked_ends
  intro _
  apply Act.ends_get_bind.mpr
  rw [if_pos hup]
  exact Act.returns_pure _ k

theorem start_returns (hup : k.initialized = true) (hstarted : k.started = true) :
    (Kernel.start : Act C _).Returns k := by
  unfold Kernel.start
  rw [Act.Returns, Act.get_bind, if_neg (by simp [hup]), if_pos hstarted]
  exact Act.returns_pure _ k

theorem Act.Ends.done {α : Type} {act : Act C α} {r : Option Fault} (h : act.Ends k r) :
    (act >>= fun _ => pure Reply.done).Ends k r :=
  h.bind_pure fun _ => Reply.done

theorem Act.Returns.done {α : Type} {act : Act C α} (h : act.Returns k) :
    (act >>= fun _ => pure Reply.done).Ends k none :=
  Act.Ends.done (r := none) h

/-- A call on an able kernel is refused for its caller, or it comes back. -/
theorem call_ends (hq : hooks.QueryOnly) (hp : hooks.Prompt) (h : k.core.Able)
    (hstarted : k.started = true) (hticks : k.clock.ticks < Word.top)
    (hstats : k.tables.stats.idle + k.tables.stats.kernel + k.tables.stats.user < Word.top)
    (hslice : k.tables.sliceTicks < Word.top32) (c : Call C.Body) :
    (c.perform hooks).Ends k (k.refusal c) := by
  cases c with
  | init => exact (init_ends h.up).bind_pure _
  | start => exact Act.Ends.bind_pure (r := none) (start_returns h.up hstarted) _
  | create name priority body =>
    exact Act.Ends.bind_pure (r := none) (Kernel.create_returns h name priority body) _
  | unblock id => exact (Kernel.unblock_ends h id).done
  | block => exact (Kernel.block_ends hq hp h).done
  | yieldNow =>
    exact Act.Returns.done (Kernel.yieldNow_returns hq hp h.toUpright h.canSwitch)
  | exit => exact Act.Returns.done (Kernel.exit_returns hq hp h)
  | sleepUntil w => exact (Kernel.sleepUntil_ends hq hp h).done
  | sleep n => exact (Kernel.sleep_ends hq hp h n).done
  | realTimeSleep num denom =>
    exact (Kernel.realTimeSleep_ends hq hp h num denom).done
  | sleepMillis n => exact (Kernel.realTimeSleep_ends hq hp h n 1000).done
  | sleepMicros n => exact (Kernel.realTimeSleep_ends hq hp h n 1000000).done
  | sleepNanos n => exact (Kernel.realTimeSleep_ends hq hp h n 1000000000).done
  | sleepFor d =>
    exact (Kernel.realTimeSleep_ends hq hp h d.nanos 1000000000).done
  | timerInterrupt =>
    exact (Kernel.timerInterrupt_ends hq hp h.toUpright hticks hstats hslice).done
  | onTimerInterrupt =>
    exact (Kernel.onTimerInterrupt_ends hq hp h.toUpright hticks hstats hslice
      fun _ hticked _ => hticked.canSwitch h.counted h.carriedOut).done
  | setPriority priority =>
    exact Act.Returns.done (Kernel.setPriority_returns h priority)
  | advanceClock =>
    exact Act.Returns.done ⟨_, _, Kernel.advanceClock_of_lt hticks⟩
  | setLevel l => exact ⟨_, _, rfl⟩
  | setLoopsPerTick loops => exact ⟨_, _, rfl⟩
  | dumpStats => exact ⟨_, _, rfl⟩
  | timerStats => exact ⟨_, _, rfl⟩
  | installHooks => exact ⟨_, _, rfl⟩

variable {config : Config} {client : C.State} {k₀ : Kernel C} {calls : List (Call C.Body)}

/-- Internal assertions are unreachable. After every orderly run that started the kernel the current
thread can be looked at, and every call is refused for its caller or comes back. -/
theorem only_callers_stop_the_machine (hq : hooks.QueryOnly) (hp : hooks.Prompt)
    (h₀ : Kernel.ofConfig config client = .ok k₀) (hword : config.timeSlice ≤ Word.top32)
    (hrun : Run hooks orderly k₀ calls k) (hstarted : k.started = true)
    (hticks : k.clock.ticks < Word.top) (hspawns : k.spawns < Word.top)
    (hdecisions : k.decisions.length < Word.top) :
    (∃ h, k.currentHandle = .ok h) ∧
    (∀ c : Call C.Body, (c.perform hooks).Ends k (k.refusal c)) ∧
    (∀ (c : Call C.Body) e k', c.perform hooks k = .error e k' → blamesCaller c e) := by
  -- a slice is shorter than a word, so its count has room for one more tick
  obtain ⟨hable, hslice, hstats⟩ := hrun.able hq h₀ hstarted hticks hspawns hdecisions
  have hends : ∀ c : Call C.Body, (c.perform hooks).Ends k (k.refusal c) :=
    call_ends hq hp hable hstarted hticks hstats (by omega)
  have hcurrent := (Kernel.answering_of_readable hable.readable hable.up).current
  exact ⟨hcurrent, hends, fun c e k' hstop => blamesCaller_of_refusal ((hends c).fault_eq hstop)⟩

/-- While the thread that booted sleeps, the idle thread may block with interrupts masked, and may not
sleep. -/
theorem only_callers_stop_the_machine_asleep : ∃ k : Kernel plainClient,
    plainKernel.after .plain Kernel.admits [.init, .start, .sleep 2, .setLevel .off] = some k ∧
    (Call.perform .plain .block).Returns k ∧
    (Call.perform .plain (.sleepUntil 5)).Stops k .idleSleep := by
  have hchecks : (plainKernel.after .plain Kernel.admits
      [.init, .start, .sleep 2, .setLevel .off]).any (fun k =>
        k.started && decide (k.clock.ticks < Word.top) && decide (k.spawns < Word.top) &&
          decide (k.decisions.length < Word.top) && decide (k.refusal .block = none) &&
          decide (k.refusal (.sleepUntil 5) = some .idleSleep)) = true := by decide +kernel
  obtain ⟨k, hk, hchecks⟩ := (Option.any_eq_true _ _).mp hchecks
  simp only [Bool.and_eq_true, decide_eq_true_eq] at hchecks
  obtain ⟨⟨⟨⟨⟨hstarted, hticks⟩, hspawns⟩, hdecisions⟩, hblock⟩, hsleep⟩ := hchecks
  obtain ⟨_, hends, _⟩ := only_callers_stop_the_machine Hooks.queryOnly_plain Hooks.prompt_plain
    ofConfig_standard (by decide) (Run.of_after hk) hstarted hticks hspawns hdecisions
  have hblock' := hends .block
  have hsleep' := hends (.sleepUntil 5)
  rw [hblock] at hblock'
  rw [hsleep] at hsleep'
  exact ⟨k, hk, hblock', hsleep'⟩

end RoundRobin
