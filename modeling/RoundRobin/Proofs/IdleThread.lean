import RoundRobin.Proofs.Kernel.Returns
import RoundRobin.Proofs.Tables.Reclaim

/-!
# Somebody to run

A decision that finds the ready queue empty takes the idle thread, and does not look at it first. As
long as the idle thread does not exit this is right: the thread is there, it is alive, and every
decision can be made. Nothing keeps the idle thread from an exit, though, and after one there may be
nobody to run.
-/

namespace RoundRobin

variable {C : Client} {hooks : Hooks C} {config : Config} {client : C.State} {k₀ k : Kernel C}
  {calls : List (Call C.Body)}

/-- Nobody exits while the idle thread runs. -/
def idleRemains (k : Kernel C) (c : Call C.Body) : Prop := c = .exit → k.tables.idleRuns = false

namespace Tables

variable {β : Type} {t t' : Tables β} {way : Way}

/-- There is an idle thread, and it is alive. -/
def Manned (t : Tables β) : Prop :=
  ∃ i th, t.idle = some i ∧ t.threads.find? i = some th ∧ th.status ≠ .dying

theorem Attended.manned (h : Attended t) (hsome : t.idle.isSome = true) : t.Manned := by
  obtain ⟨i, hi⟩ := Option.isSome_iff_exists.mp hsome
  obtain ⟨th, hth, halive⟩ := h i hi
  exact ⟨i, th, hi, hth, halive⟩

/-- The current thread can leave in every way, and so it can after a tick; the idle thread may not
sleep. -/
structure Dispatchable (t : Tables β) : Prop where
  leave : ∀ way, (∀ w, way = .sleep w → t.idleRuns = false) → ∃ d t', t.leave way = .ok (d, t')
  preempt : ∀ user now timeSlice asks t', t.tick user now timeSlice = .ok (asks, t') →
    ∃ d t'', t'.leave .yield = .ok (d, t'')

theorem Sound.dispatchable (h : Sound t) (hhoused : Housed t) (hattended : Attended t)
    (hsome : t.idle.isSome = true) (hswitches : t.switches < Word.top) : t.Dispatchable := by
  refine ⟨fun way hway => h.leave_complete hhoused hattended hsome hswitches hway, ?_⟩
  intro user now timeSlice asks t' ht
  have hsame : t'.idle = t.idle ∧ t'.switches = t.switches := by
    rw [rest_of_tick ht]
    exact ⟨rfl, rfl⟩
  exact (h.tick ht).leave_complete (hhoused.steady (steady_tick ht)) (hattended.tick ht)
    (by rw [hsame.1]; exact hsome) (by rw [hsame.2]; exact hswitches) nofun

end Tables

theorem Run.manned (hq : hooks.QueryOnly) (h₀ : Kernel.ofConfig config client = .ok k₀)
    (hrun : Run hooks idleRemains k₀ calls k) : k.core.Manned :=
  hrun.keeps_of_may hq Core.kept_manned
    (fun _ _ may _ htaken hexit => may (htaken.exits hexit)) (Kernel.manned_of_ofConfig h₀).2

/-- As long as the idle thread does not exit it is alive, whoever exits is not the thread that runs
next, and every decision finds a thread to run. -/
theorem idle_thread_remains (hq : hooks.QueryOnly) (h₀ : Kernel.ofConfig config client = .ok k₀)
    (hrun : Run hooks idleRemains k₀ calls k) (hstarted : k.started = true)
    (hspawns : k.spawns < Word.top) :
    k.tables.Manned ∧
    (∀ r k', idleRemains k .exit → Call.exit.perform hooks k = .ok r k' →
      k'.tables.current ≠ k.tables.current) ∧
    (k.decisions.length < Word.top → k.tables.Dispatchable) := by
  have hmanned := hrun.manned hq h₀
  have hcoherent := hmanned.accounted.coherent
  have hup : k.initialized = true := by
    refine hcoherent.up hspawns fun hblank => ?_
    have hnot : k.started = false := hblank.started
    rw [hstarted] at hnot
    cases hnot
  have hrecorded := hcoherent.recorded hspawns hup
  have hsound : k.tables.Sound := hrecorded.sound
  have hattended : k.tables.Attended := hmanned.attended hspawns
  have hsome : k.tables.idle.isSome = true := hrecorded.idle.trans hstarted
  refine ⟨hattended.manned hsome, ?_, fun hdecisions => ?_⟩
  · intro r k' hremains hexit
    obtain ⟨_, hexit⟩ := Act.ok_of_bind_pure hexit
    obtain ⟨d, t, hleave, hcore⟩ := Kernel.core_of_exit hq hexit
    have hparting := Tables.parting_of_leave hleave
    have hidle : k.tables.idle ≠ some d.previous := by
      intro hidle
      have hruns := hremains rfl
      rw [Tables.idleRuns_eq hparting.previous, Tables.isIdle_iff.mpr hidle] at hruns
      cases hruns
    have hnext := hsound.next_ne_of_exit hidle hleave
    have hcurrent : k'.tables.current = some d.next :=
      (congrArg (fun s => s.tables.current) hcore).trans hparting.current
    rw [hcurrent, hparting.previous, ne_eq, Option.some.injEq]
    exact hnext
  · exact hsound.dispatchable (hmanned.accounted.balanced hspawns).housed hattended hsome
      (Nat.lt_of_le_of_lt (hrun.counted hq h₀).counted hdecisions)

/-- While the thread that booted is blocked the idle thread runs, and a worker waits for it to leave. -/
theorem idle_thread_remains_alone : ∃ k : Kernel plainClient,
    plainKernel.after .plain (fun _ c => !c matches .exit)
      [.init, .start, .setLevel .off, .block, .create "worker" 31 ()] = some k ∧
    k.tables.current = k.tables.idle ∧ k.tables.Manned ∧
    ∃ d t, k.tables.leave .block = .ok (d, t) := by
  have hchecks : (plainKernel.after .plain (fun _ c => !c matches .exit)
      [.init, .start, .setLevel .off, .block, .create "worker" 31 ()]).any (fun k =>
        k.started && decide (k.spawns < Word.top) && decide (k.decisions.length < Word.top) &&
          decide (k.tables.current = k.tables.idle)) = true := by decide +kernel
  obtain ⟨k, hk, hchecks⟩ := (Option.any_eq_true _ _).mp hchecks
  simp only [Bool.and_eq_true, decide_eq_true_eq] at hchecks
  obtain ⟨⟨⟨hstarted, hspawns⟩, hdecisions⟩, hidle⟩ := hchecks
  have hrun : Run .plain idleRemains plainKernel _ k := (Run.of_after hk).mono fun _ c hc hexit => by
    rw [hexit] at hc
    cases hc
  obtain ⟨hmanned, _, hdispatchable⟩ :=
    idle_thread_remains Hooks.queryOnly_plain ofConfig_standard hrun hstarted hspawns
  exact ⟨k, hk, hidle, hmanned, (hdispatchable hdecisions).leave .block nofun⟩

/-- The idle thread may exit, and then nothing of this holds. With the queue empty its exit makes it the
current thread again. With a worker in the queue it dies, and when the worker blocks there is no thread
left to run. -/
theorem idle_thread_may_exit : ∃ k k' k'' : Kernel plainClient,
    plainKernel.after .plain (fun _ _ => true) [.init, .start, .setLevel .off, .block] = some k ∧
    k.after .plain (fun _ _ => true) [.exit] = some k' ∧
    k'.tables.current = k.tables.current ∧
    k.after .plain (fun _ _ => true) [.create "worker" 31 (), .exit] = some k'' ∧
    k''.tables.idle.bind k''.statusOf = some .dying ∧
    (Kernel.block .plain).Stops k'' (.noThread ⟨2⟩) := by
  have hchecks : (plainKernel.after .plain (fun _ _ => true)
      [.init, .start, .setLevel .off, .block]).any (fun k =>
        (k.after .plain (fun _ _ => true) [.exit]).any (fun k' =>
          decide (k'.tables.current = k.tables.current)) &&
        (k.after .plain (fun _ _ => true) [.create "worker" 31 (), .exit]).any fun k'' =>
          decide (k''.tables.idle.bind k''.statusOf = some .dying) &&
            match Kernel.block .plain k'' with
            | .ok _ _ => false
            | .error e _ => e == .noThread ⟨2⟩) = true := by decide +kernel
  obtain ⟨k, hk, hchecks⟩ := (Option.any_eq_true _ _).mp hchecks
  obtain ⟨hempty, hworker⟩ := (Bool.and_eq_true _ _).mp hchecks
  obtain ⟨k', hk', hcurrent⟩ := (Option.any_eq_true _ _).mp hempty
  obtain ⟨k'', hk'', hchecks⟩ := (Option.any_eq_true _ _).mp hworker
  obtain ⟨hdying, hstops⟩ := (Bool.and_eq_true _ _).mp hchecks
  refine ⟨k, k', k'', hk, hk', of_decide_eq_true hcurrent, hk'', of_decide_eq_true hdying, ?_⟩
  cases hblock : Kernel.block .plain k'' with
  | ok _ _ => rw [hblock] at hstops; cases hstops
  | error e k₁ =>
    rw [hblock] at hstops
    exact ⟨k₁, by rw [hblock, beq_iff_eq.mp hstops]⟩

end RoundRobin
