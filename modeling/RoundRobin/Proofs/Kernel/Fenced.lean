import RoundRobin.Proofs.Kernel.Act
import RoundRobin.Proofs.Kernel.Run
import RoundRobin.Proofs.Tables.Ready

/-!
# Calls inside the handler

A flag is set while the timer's handler runs, and everything that could take the processor from the
current thread stops at it. An operation is `Fenced` when it leaves a kernel undisturbed in which that
flag is set, whether it comes back or stops. Every call is fenced, whatever the process layer does.
-/

namespace RoundRobin

variable {C : Client} {α β : Type}

/-! ## Tables whose current thread goes on -/

namespace Tables

variable {γ : Type} {t t' u : Tables γ} {id : ThreadId}

/-- Who runs goes on to run, and nothing that belongs to decisions was touched. -/
structure Still (t t' : Tables γ) : Prop where
  current : t'.current = t.current
  reclaim : t'.reclaim = t.reclaim
  sliceTicks : t'.sliceTicks = t.sliceTicks
  switches : t'.switches = t.switches
  running : ∀ c, t.statusOf c = some .running → t'.statusOf c = some .running

theorem Still.refl (t : Tables γ) : Still t t := ⟨rfl, rfl, rfl, rfl, fun _ h => h⟩

theorem Still.trans (h : Still t u) (h' : Still u t') : Still t t' :=
  ⟨h'.current.trans h.current, h'.reclaim.trans h.reclaim, h'.sliceTicks.trans h.sliceTicks,
    h'.switches.trans h.switches, fun c hc => h'.running c (h.running c hc)⟩

/-- Only a blocked thread is made ready, so the one that runs is not. -/
theorem still_of_makeReady (h : t.makeReady id = .ok t') : Still t t' := by
  have hreadied := readied_of_makeReady h
  obtain ⟨⟨th, hth, hblocked⟩, _, _⟩ := makeReady_eq_ok_iff.mp h
  refine ⟨by rw [hreadied.rest], by rw [hreadied.rest], by rw [hreadied.rest],
    by rw [hreadied.rest], fun c hc => ?_⟩
  have hne : c ≠ id := by
    rintro rfl
    rw [statusOf, hth, Option.map_some, hblocked] at hc
    cases hc
  rw [hreadied.statusOf fun hmem => hne (List.mem_singleton.mp hmem)]
  exact hc

theorem still_of_unblock (h : t.unblock id = .ok t') : Still t t' := by
  obtain ⟨⟨th, hth, _, hblocked, _⟩, hroom, rfl⟩ := unblock_eq_ok_iff.mp h
  exact still_of_makeReady (makeReady_eq_ok_iff.mpr ⟨⟨th, hth, hblocked⟩, hroom, rfl⟩)

theorem still_of_makeAllReady {ids : List ThreadId} (h : makeAllReady ids t = .ok t') :
    Still t t' := by
  induction ids generalizing t with
  | nil => cases h; exact .refl _
  | cons id rest ih =>
    obtain ⟨u, hu, h⟩ := Fault.bind_eq_ok_iff.mp h
    exact (still_of_makeReady hu).trans (ih h)

theorem still_of_wakeDue {now count : Nat} (h : t.wakeDue now = .ok (count, t')) :
    Still t t' := by
  rcases wakeDue_eq_ok_iff.mp h with ⟨_, _, hm⟩ | ⟨_, _, rfl⟩
  · have hsleepers : Still t { t with sleepers := (t.sleepers.wake now).2 } :=
      ⟨rfl, rfl, rfl, rfl, fun _ h => h⟩
    exact hsleepers.trans (still_of_makeAllReady hm)
  · exact .refl _

/-- A change of threads that keeps their status. -/
theorem still_modifyThread {f : Thread γ → Thread γ}
    (hf : ∀ th, (f th).id = th.id ∧ (f th).status = th.status) :
    Still t (t.modifyThread id f) :=
  ⟨rfl, rfl, rfl, rfl, fun _ hc => (statusOf_modifyThread hf).trans hc⟩

end Tables

/-! ## Undisturbed kernels -/

/-- What stands still while the timer's handler runs. -/
structure Standing where
  config : Config
  inInterrupt : Bool
  initialized : Bool
  current : Option ThreadId
  reclaim : List ThreadId
  sliceTicks : Nat
  /-- Switches that were decided on, and those that the processor carried out. -/
  switches : Nat × Nat
  decisions : List Dispatch

namespace Kernel

variable {k k' k₁ : Kernel C} {c : ThreadId}

def standing (k : Kernel C) : Standing where
  config := k.config
  inInterrupt := k.inInterrupt
  initialized := k.initialized
  current := k.tables.current
  reclaim := k.tables.reclaim
  sliceTicks := k.tables.sliceTicks
  switches := (k.tables.switches, k.cpu.switches)
  decisions := k.decisions

/-- The thread runs, and no new thread is given its id. (Ids are handed out in order, and the last one
of all is handed out for ever.) -/
structure Runs (k : Kernel C) (c : ThreadId) : Prop where
  running : k.statusOf c = some .running
  taken : c.val < k.nextId.val
  notLast : c.val < Word.top

/-- Nothing was decided, and who ran runs. -/
structure Undisturbed (k k' : Kernel C) : Prop where
  standing : k'.standing = k.standing
  runs : ∀ c, k.Runs c → k'.Runs c

theorem Undisturbed.refl (k : Kernel C) : Undisturbed k k := ⟨rfl, fun _ h => h⟩

theorem Undisturbed.trans (h : Undisturbed k k₁) (h' : Undisturbed k₁ k') : Undisturbed k k' :=
  ⟨h'.standing.trans h.standing, fun c hc => h'.runs c (h.runs c hc)⟩

theorem Undisturbed.inInterrupt (h : Undisturbed k k') : k'.inInterrupt = k.inInterrupt :=
  congrArg Standing.inInterrupt h.standing

theorem Undisturbed.initialized (h : Undisturbed k k') : k'.initialized = k.initialized :=
  congrArg Standing.initialized h.standing

/-- Nothing is disturbed where threads and ids stay as they are. -/
theorem undisturbed_of_eq (hstanding : k'.standing = k.standing)
    (hthreads : k'.tables.threads = k.tables.threads) (hnext : k'.nextId = k.nextId) :
    Undisturbed k k' := by
  refine ⟨hstanding, fun c hc => ⟨?_, hnext ▸ hc.taken, hc.notLast⟩⟩
  unfold statusOf
  rw [hthreads]
  exact hc.running

/-- A critical section that keeps still disturbs nothing. -/
theorem undisturbed_of_still {t : Tables C.Body} {l : Level} (h : k.tables.Still t) :
    Undisturbed k { k with tables := t, history := .updated l :: k.history } := by
  constructor
  · unfold standing decisions
    rw [h.current, h.reclaim, h.sliceTicks, h.switches]
    rfl
  · exact fun c hc => ⟨h.running c hc.running, hc.taken, hc.notLast⟩

theorem undisturbed_setLevel (l : Level) (k : Kernel C) :
    Undisturbed k { k with cpu := Maskable.setLevel l k.cpu } := by
  cases l <;> exact undisturbed_of_eq rfl rfl rfl

theorem undisturbed_record {e : Event C.Note} (he : e.decision? = none) (k : Kernel C) :
    Undisturbed k { k with history := e :: k.history } := by
  refine undisturbed_of_eq ?_ rfl rfl
  unfold standing decisions
  rw [List.filterMap_cons, he]

/-- A new thread takes the next id, and so it replaces nobody. -/
theorem undisturbed_insertThread (th : Thread C.Body) (l : Level) (hid : th.id = k.nextId) :
    Undisturbed k { k with
      nextId := k.nextId.next
      tables := k.tables.insertThread th
      history := .updated l :: k.history } := by
  refine ⟨rfl, fun c hc => ⟨?_, ?_, hc.notLast⟩⟩
  · have hne : c ≠ th.id := by
      rintro rfl
      have := hc.taken
      rw [hid] at this
      omega
    rw [← hc.running]
    unfold statusOf
    exact congrArg _ ((ThreadTable.find?_insert _ _ _).trans (if_neg hne))
  · have htaken := hc.taken
    have hlast := hc.notLast
    show c.val < Word.saturate (k.nextId.val + 1)
    unfold Word.saturate
    omega

end Kernel

/-! ## Fenced operations -/

namespace Act

variable {k k' : Kernel C} {act : Act C α} {f : α → Act C β}

/-- Inside the handler the operation disturbs nothing. -/
def Fenced (act : Act C α) : Prop :=
  ∀ k : Kernel C, k.inInterrupt = true → k.initialized = true → k.Undisturbed (act.final k)

theorem Fenced.of_ok {a : α} (hact : act.Fenced) (hin : k.inInterrupt = true)
    (hup : k.initialized = true) (h : act k = .ok a k') : k.Undisturbed k' :=
  final_of_ok h ▸ hact k hin hup

theorem Fenced.bind (hact : act.Fenced) (hf : ∀ a, (f a).Fenced) : (act >>= f).Fenced := by
  intro k hin hup
  have hfirst := hact k hin hup
  cases h : act k with
  | error e k₁ =>
    rw [final_bind_of_error h]
    exact final_of_error h ▸ hfirst
  | ok a k₁ =>
    rw [final_of_ok h] at hfirst
    have hrest := hf a k₁ (hfirst.inInterrupt.trans hin) (hfirst.initialized.trans hup)
    rw [final_bind_of_ok h]
    exact hfirst.trans hrest

theorem fenced_get_bind {f : Kernel C → Act C β}
    (hf : ∀ k : Kernel C, k.inInterrupt = true → k.initialized = true →
      k.Undisturbed ((f k).final k)) :
    ((get : Act C (Kernel C)) >>= f).Fenced :=
  fun k hin hup => hf k hin hup

/-- An operation that changes nothing. -/
theorem fenced_of_final (h : ∀ k, act.final k = k) : act.Fenced :=
  fun k _ _ => (h k).symm ▸ .refl k

/-- An operation that stops inside the handler before it changed anything. -/
theorem fenced_of_error (h : ∀ k : Kernel C, k.inInterrupt = true → ∃ e, act k = .error e k) :
    act.Fenced := by
  intro k hin _
  obtain ⟨e, he⟩ := h k hin
  rw [final_of_error he]
  exact .refl k

/-- To catch a fault is to go on from the kernel that it left. -/
theorem Fenced.attempt (h : act.Fenced) : act.attempt.Fenced := by
  intro k hin hup
  have hfinal : act.attempt.final k = act.final k := by
    unfold Act.attempt Act.final
    dsimp only
    cases act k <;> rfl
  exact hfinal ▸ h k hin hup

theorem fenced_pure (a : α) : (pure a : Act C α).Fenced := fenced_of_final fun _ => rfl

theorem fenced_throw (e : Fault) : (throw e : Act C α).Fenced := fenced_of_final fun _ => rfl

theorem fenced_get : (get : Act C (Kernel C)).Fenced := fenced_of_final fun _ => rfl

theorem fenced_orFault (r : Except Fault α) : (orFault r : Act C α).Fenced :=
  fenced_of_final fun _ => by cases r <;> rfl

theorem fenced_inspect (g : Tables C.Body → Except Fault α) : (inspect g : Act C α).Fenced :=
  fenced_get.bind fun _ => fenced_orFault _

theorem fenced_level : (level : Act C Level).Fenced := fenced_of_final fun _ => rfl

theorem fenced_setLevel (l : Level) : (setLevel l : Act C Unit).Fenced :=
  fun k _ _ => Kernel.undisturbed_setLevel l k

theorem fenced_record {e : Event C.Note} (he : e.decision? = none) : (record e).Fenced :=
  fun k _ _ => Kernel.undisturbed_record he k

theorem fenced_log (m : LogMessage) : (log m : Act C Unit).Fenced := fenced_record rfl

theorem fenced_modify {g : Kernel C → Kernel C} (hg : ∀ k : Kernel C, k.Undisturbed (g k)) :
    (modify g : Act C Unit).Fenced :=
  fun k _ _ => hg k

/-- A check changes nothing, whether it passes or stops. -/
theorem fenced_check (p : Prop) [Decidable p] (e : Fault) :
    (if p then throw e else pure () : Act C Unit).Fenced := by
  split
  · exact fenced_throw e
  · exact fenced_pure ()

theorem fenced_requireMasked (e : Fault) : (requireMasked e : Act C Unit).Fenced :=
  fenced_level.bind fun _ => fenced_check _ e

theorem fenced_requireUnmasked (e : Fault) : (requireUnmasked e : Act C Unit).Fenced :=
  fenced_level.bind fun _ => fenced_check _ e

theorem fenced_masked (h : act.Fenced) : (masked act).Fenced :=
  fenced_level.bind fun old =>
    (fenced_setLevel .off).bind fun _ =>
      h.bind fun a => (fenced_setLevel old).bind fun _ => fenced_pure a

theorem fenced_update {g : Tables C.Body → Except Fault (α × Tables C.Body)}
    (hg : ∀ t a t', g t = .ok (a, t') → t.Still t') : (update g).Fenced := by
  intro k _ _
  cases h : g k.tables with
  | error e =>
    rw [final_of_error (update_of_error h)]
    exact .refl k
  | ok r =>
    rw [final_of_ok (update_of_ok h)]
    exact Kernel.undisturbed_of_still (hg _ _ _ h)

theorem fenced_change {g : Tables C.Body → Except Fault (Tables C.Body)}
    (hg : ∀ t t', g t = .ok t' → t.Still t') : (change g).Fenced :=
  fenced_update fun t _ t' h => hg t t' (eq_ok_of_map_unit h)

/-- What comes after the check of a caller does not matter inside the handler. -/
theorem requireThreadContext_inside {f : Unit → Act C β} (hin : k.inInterrupt = true) (e : Fault) :
    (requireThreadContext e >>= f) k = .error e k :=
  bind_of_error (by rw [requireThreadContext_apply, if_pos hin])

end Act

/-! ## What stops inside the handler -/

namespace Kernel

open Act

variable {hooks : Hooks C} {k : Kernel C}

theorem block_inside (hin : k.inInterrupt = true) : block hooks k = .error .blockInHandler k :=
  requireThreadContext_inside hin _

theorem yieldNow_inside (hin : k.inInterrupt = true) :
    yieldNow hooks k = .error .yieldInHandler k :=
  requireThreadContext_inside hin _

theorem sleepUntil_inside (hin : k.inInterrupt = true) (w : Nat) :
    sleepUntil hooks w k = .error .sleepInHandler k :=
  requireThreadContext_inside hin _

theorem exit_inside (hin : k.inInterrupt = true) : exit hooks k = .error .exitInHandler k :=
  requireThreadContext_inside hin _

theorem sleep_inside (hin : k.inInterrupt = true) (n : Nat) :
    sleep hooks n k = .error
      (if Maskable.level k.cpu = .off then .sleepMasked else .sleepInHandler) k := by
  unfold sleep
  rw [get_bind]
  split
  · next hoff => exact bind_of_error (by rw [requireUnmasked_apply, if_pos hoff])
  · next hon =>
    rw [bind_of_ok (by rw [requireUnmasked_apply, if_neg hon])]
    exact sleepUntil_inside hin _

theorem timerInterrupt_inside (hin : k.inInterrupt = true) :
    timerInterrupt hooks k = .error
      (if Maskable.level k.cpu = .on then .timerUnmasked else .nestedTimer) k := by
  unfold timerInterrupt
  split
  · next hon => exact bind_of_error (by rw [requireMasked_apply, if_pos hon])
  · next hoff =>
    rw [bind_of_ok (by rw [requireMasked_apply, if_neg hoff])]
    exact requireThreadContext_inside hin _

end Kernel

/-- The fault that stops a call inside the handler, for the calls that could take the processor away. -/
def Call.refusalInside {β : Type} (l : Level) : Call β → Option Fault
  | block => some .blockInHandler
  | yieldNow => some .yieldInHandler
  | exit => some .exitInHandler
  | sleepUntil _ => some .sleepInHandler
  | sleep _ => some (if l = .off then .sleepMasked else .sleepInHandler)
  | timerInterrupt => some (if l = .on then .timerUnmasked else .nestedTimer)
  | onTimerInterrupt => some (if l = .on then .timerUnmasked else .nestedTimer)
  | _ => none

/-- Such a call stops, and the kernel is what it was. -/
theorem Call.stops_inside {hooks : Hooks C} {k : Kernel C} {c : Call C.Body} {e : Fault}
    (hin : k.inInterrupt = true) (h : c.refusalInside (Maskable.level k.cpu) = some e) :
    c.perform hooks k = .error e k := by
  cases c with
  | block => cases h; exact Act.bind_of_error (Kernel.block_inside hin)
  | yieldNow => cases h; exact Act.bind_of_error (Kernel.yieldNow_inside hin)
  | exit => cases h; exact Act.bind_of_error (Kernel.exit_inside hin)
  | sleepUntil w => cases h; exact Act.bind_of_error (Kernel.sleepUntil_inside hin w)
  | sleep n => cases h; exact Act.bind_of_error (Kernel.sleep_inside hin n)
  | timerInterrupt => cases h; exact Act.bind_of_error (Kernel.timerInterrupt_inside hin)
  | onTimerInterrupt =>
    -- no yield follows a handler that did not come back
    cases h
    exact Act.bind_of_error (Act.bind_of_error (Kernel.timerInterrupt_inside hin))
  | _ => cases h

/-! ## Every operation is fenced -/

namespace Kernel

open Act

variable {hooks : Hooks C}

theorem fenced_sleep (hooks : Hooks C) (n : Nat) : (sleep hooks n).Fenced :=
  fenced_of_error fun _ hin => ⟨_, sleep_inside hin n⟩

theorem fenced_realTimeSleep (hooks : Hooks C) (num denom : Nat) :
    (realTimeSleep hooks num denom).Fenced :=
  fenced_get.bind fun _ => (fenced_orFault _).bind fun _ =>
    (fenced_requireUnmasked _).bind fun _ => by
      split
      · exact fenced_sleep hooks _
      · exact (fenced_orFault _).bind fun _ => fenced_record rfl

theorem fenced_unblock (id : ThreadId) : (unblock id : Act C Unit).Fenced :=
  fenced_masked (fenced_change fun _ _ => Tables.still_of_unblock)

theorem fenced_takePage : (takePage : Act C (Option Page)).Fenced :=
  fenced_masked <| fenced_get.bind fun k => by
    split
    · exact fenced_pure none
    · refine (fenced_change fun t t' h => ?_).bind fun _ => fenced_pure _
      cases h
      exact ⟨rfl, rfl, rfl, rfl, fun _ h => h⟩

/-- A thread is put into the table under the id that was taken for it. -/
theorem fenced_spawn (name : String) (priority : Nat) (entry : Entry C.Body) :
    (spawn name priority entry).Fenced :=
  fenced_get.bind fun k₀ => by
    split
    · refine fenced_takePage.bind fun r => ?_
      split
      · exact fenced_pure _
      · next page =>
        intro k _ _
        -- taking the id alone would leave it to a second thread
        have hinsert := undisturbed_insertThread (k := k)
          (freshThread k₀.image k.nextId name priority page entry) .off rfl
        exact (hinsert.trans (undisturbed_setLevel .off _)).trans
          (undisturbed_setLevel (Maskable.level k.cpu) _)
    · exact fenced_pure _

theorem fenced_create (name : String) (priority : Nat) (body : C.Body) :
    (create name priority body).Fenced := by
  unfold create
  split
  · exact fenced_pure _
  · refine (fenced_spawn _ _ _).bind fun r => ?_
    split
    · exact fenced_pure _
    · exact (fenced_unblock _).bind fun _ => (fenced_log _).bind fun _ => fenced_pure _

/-- An initialized kernel is not initialized again. -/
theorem fenced_init : (init : Act C (Except BringUpError Unit)).Fenced :=
  (fenced_requireMasked _).bind fun _ => fenced_get_bind fun k _ hup => by
    rw [if_pos hup]
    exact .refl k

theorem fenced_setStarted (started : Bool) : (setStarted started : Act C Unit).Fenced :=
  fenced_modify fun _ => undisturbed_of_eq rfl rfl rfl

theorem fenced_start : (start : Act C (Except Error Unit)).Fenced :=
  fenced_get.bind fun k => by
    split
    · exact fenced_pure _
    · split
      · exact fenced_pure _
      · refine (fenced_setStarted true).bind fun _ => (fenced_spawn _ _ _).bind fun r => ?_
        split
        · exact (fenced_setStarted false).bind fun _ => fenced_pure _
        · refine (fenced_masked (fenced_change fun t t' h => ?_)).bind fun _ =>
            (fenced_log _).bind fun _ => (fenced_setLevel .on).bind fun _ => fenced_pure _
          cases h
          exact ⟨rfl, rfl, rfl, rfl, fun _ h => h⟩

theorem fenced_setPriority (priority : Nat) : (setPriority priority : Act C Unit).Fenced :=
  fenced_masked (fenced_change fun t t' h => by
    obtain ⟨_, _, h⟩ := Fault.bind_eq_ok_iff.mp h
    obtain ⟨_, _, h⟩ := Fault.bind_eq_ok_iff.mp h
    rw [Fault.pure_eq_ok_iff.mp h]
    exact Tables.still_modifyThread fun _ => ⟨rfl, rfl⟩)

theorem fenced_advanceClock : (advanceClock : Act C Nat).Fenced :=
  fenced_get.bind fun _ => (fenced_orFault _).bind fun _ =>
    Fenced.bind (fenced_modify fun _ => undisturbed_of_eq rfl rfl rfl) fun _ => fenced_pure _

end Kernel

/-- Whatever is called inside the handler, the kernel is left undisturbed. -/
theorem Call.fenced (hooks : Hooks C) (c : Call C.Body) : (c.perform hooks).Fenced := by
  have hdone {act : Act C Unit} (h : act.Fenced) : (do act; return .done : Act C Reply).Fenced :=
    h.bind fun _ => Act.fenced_pure _
  cases c with
  | init => exact Kernel.fenced_init.bind fun _ => Act.fenced_pure _
  | start => exact Kernel.fenced_start.bind fun _ => Act.fenced_pure _
  | create => exact (Kernel.fenced_create _ _ _).bind fun _ => Act.fenced_pure _
  | unblock id => exact hdone (Kernel.fenced_unblock id)
  | block => exact Act.fenced_of_error fun _ hin => ⟨_, stops_inside hin rfl⟩
  | yieldNow => exact Act.fenced_of_error fun _ hin => ⟨_, stops_inside hin rfl⟩
  | exit => exact Act.fenced_of_error fun _ hin => ⟨_, stops_inside hin rfl⟩
  | sleepUntil => exact Act.fenced_of_error fun _ hin => ⟨_, stops_inside hin rfl⟩
  | sleep => exact Act.fenced_of_error fun _ hin => ⟨_, stops_inside hin rfl⟩
  | realTimeSleep => exact hdone (Kernel.fenced_realTimeSleep hooks _ _)
  | sleepMillis => exact hdone (Kernel.fenced_realTimeSleep hooks _ _)
  | sleepMicros => exact hdone (Kernel.fenced_realTimeSleep hooks _ _)
  | sleepNanos => exact hdone (Kernel.fenced_realTimeSleep hooks _ _)
  | sleepFor => exact hdone (Kernel.fenced_realTimeSleep hooks _ _)
  | timerInterrupt => exact Act.fenced_of_error fun _ hin => ⟨_, stops_inside hin rfl⟩
  | onTimerInterrupt => exact Act.fenced_of_error fun _ hin => ⟨_, stops_inside hin rfl⟩
  | setPriority priority => exact hdone (Kernel.fenced_setPriority priority)
  | setLevel l =>
    exact Act.fenced_level.bind fun _ => (Act.fenced_setLevel l).bind fun _ => Act.fenced_pure _
  | advanceClock => exact Kernel.fenced_advanceClock.bind fun _ => Act.fenced_pure _
  | setLoopsPerTick loops =>
    exact hdone (Act.fenced_modify fun _ => Kernel.undisturbed_of_eq rfl rfl rfl)
  | dumpStats => exact hdone (Act.fenced_get.bind fun _ => Act.fenced_log _)
  | timerStats => exact hdone (Act.fenced_get.bind fun _ => Act.fenced_log _)
  | installHooks =>
    exact hdone (Act.fenced_modify fun _ => Kernel.undisturbed_of_eq rfl rfl rfl)

end RoundRobin
