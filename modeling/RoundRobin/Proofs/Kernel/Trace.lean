import RoundRobin.Proofs.Kernel.History
import RoundRobin.Proofs.Kernel.Levels

/-!
# Traces

The trace of a kernel is what its history says of decisions, of calls of the process layer and of
switches. A decision leaves the same trace wherever it is made: the decision itself, the call that
activates the next thread, and a switch if that is another one. A call may announce something before
it. With a process layer installed, that is all there is to the trace of a call.
-/

namespace RoundRobin

variable {C : Client} {hooks : Hooks C}

namespace Event

variable {ν : Type}

/-- Whether the process layer was told of an exit, or asked about a tick. -/
def isAnnouncement : Event ν → Bool
  | hook .exit _ _ => true
  | hook .isUser _ _ => true
  | _ => false

theorem decision?_of_isAnnouncement {e : Event ν} (h : e.isAnnouncement = true) :
    e.decision? = none := by
  cases e with
  | dispatched => cases h
  | _ => rfl

end Event

/-- What a decision leaves in the trace, the last event first. -/
def Dispatch.trace {ν : Type} (d : Dispatch) : List (Event ν) :=
  (if d.previous = d.next then [] else [.switched .off]) ++
    [.hook .activate d.next .off, .dispatched d.previous d.next .off]

namespace Kernel

open Act

variable {k k' : Kernel C} {u : Unit}

/-- Decisions, calls of the process layer and switches, the last one first. -/
def trace (k : Kernel C) : List (Event C.Note) := k.history.filter (·.isTraced)

/-- A process layer is installed once there is a thread to tell it of. -/
def Watched (k : Kernel C) : Prop := ∀ id, k.tables.current = some id → k.hooked = true

/-- The process layer hears of the thread that exits, at its caller's level. -/
def farewell (k : Kernel C) : List (Event C.Note) :=
  match k.tables.current with
  | some id => [.hook .exit id (Maskable.level k.cpu)]
  | none => []

/-- The process layer is asked about the thread that a tick interrupts, unless that is the idle
thread. -/
def question (k : Kernel C) : List (Event C.Note) :=
  match k.tables.current with
  | some id => if k.initialized ∧ k.tables.idle ≠ some id then [.hook .isUser id .off] else []
  | none => []

/-- A decision was made, and was traced. -/
def Decides (k k' : Kernel C) : Prop := ∃ d : Dispatch, k'.trace = d.trace ++ k.trace

/-- The decisions are part of the trace. -/
theorem decisions_eq_of_trace (k : Kernel C) : k.decisions = k.trace.filterMap (·.decision?) := by
  unfold decisions trace
  rw [List.filterMap_filter]
  congr 1
  funext e
  cases e <;> rfl

/-! ## What leaves no trace -/

theorem trace_append {new : List (Event C.Note)} (hnew : ∀ e ∈ new, e.isTraced = false)
    (h : k'.history = new ++ k.history) : k'.trace = k.trace := by
  have hnone : new.filter (·.isTraced) = [] :=
    List.filter_eq_nil_iff.mpr fun e he => by rw [hnew e he]; exact nofun
  rw [trace, h, List.filter_append, hnone]
  rfl

theorem trace_of_untraced (h : (Discipline.untraced C).returned k k') : k'.trace = k.trace := by
  obtain ⟨new, hnew, huntraced, _⟩ := Adds.events h
  exact trace_append huntraced hnew

/-! ## Calls of the process layer -/

theorem trace_of_call {α : Type} {point : HookPoint} {id : ThreadId} {absent a : α} {act : Act C α}
    (hask : act.OnlyAsks) (h : Hooks.call point id absent act k = .ok a k')
    (hhooked : k.hooked = true) :
    k'.trace = .hook point id (Maskable.level k.cpu) :: k.trace ∧ k'.hooked = true := by
  unfold Hooks.call at h
  rw [get_bind, if_pos hhooked, level_bind, record_bind] at h
  obtain ⟨reports, client, hreports, rfl⟩ := hask _ a k' h
  refine ⟨?_, hhooked⟩
  exact trace_append (k := { k with history := .hook point id (Maskable.level k.cpu) :: k.history })
    (fun e he => Event.not_isTraced_of_isReport (hreports e he)) rfl

/-! ## Decisions -/

theorem trace_of_giveUpCpu {status : Status} (hq : hooks.QueryOnly)
    (h : giveUpCpu hooks status k = .ok u k') (hhooked : k.hooked = true) : k.Decides k' := by
  unfold giveUpCpu at h
  obtain ⟨hoff, h⟩ := requireMasked_bind_eq_ok_iff.mp h
  rw [bind_eq_ok_iff] at h
  obtain ⟨d, k₁, hu, h⟩ := h
  obtain ⟨t, _, rfl⟩ := update_eq_ok_iff.mp hu
  rw [level_bind, record_bind, bind_eq_ok_iff] at h
  obtain ⟨_, k₂, hcall, h⟩ := h
  obtain ⟨htrace, _⟩ := trace_of_call (hq.activate d.next) hcall hhooked
  have hactivated : k₂.trace
      = [.hook .activate d.next .off, .dispatched d.previous d.next .off] ++ k.trace := by
    rw [htrace, hoff]
    rfl
  refine ⟨d, ?_⟩
  rw [Dispatch.trace, List.append_assoc, ← hactivated]
  split at h
  · next hne =>
    obtain ⟨_, _, rfl⟩ := switchContext_eq_ok_iff.mp h
    rw [if_neg hne]
    rfl
  · next heq =>
    obtain ⟨_, rfl⟩ := pure_eq_ok_iff.mp h
    rw [if_pos (Classical.not_not.mp heq)]
    rfl

/-- A thread that is marked and gives up the processor leaves the trace of its decision. -/
theorem trace_of_markedSection {g : Tables C.Body → Except Fault (Tables C.Body)} {status : Status}
    (hq : hooks.QueryOnly) (h : masked (do change g; giveUpCpu hooks status) k = .ok u k')
    (hhooked : k.hooked = true) : k.Decides k' := by
  obtain ⟨k₁, hsection, rfl⟩ := masked_eq_ok_iff.mp h
  rw [bind_eq_ok_iff] at hsection
  obtain ⟨_, k₂, hmark, hgive⟩ := hsection
  obtain ⟨t, _, rfl⟩ := change_eq_ok_iff.mp hmark
  obtain ⟨d, hd⟩ := trace_of_giveUpCpu hq hgive hhooked
  exact ⟨d, hd⟩

theorem trace_of_block (hq : hooks.QueryOnly) (h : block hooks k = .ok u k')
    (hhooked : k.hooked = true) : k.Decides k' := by
  unfold block at h
  obtain ⟨_, h⟩ := requireThreadContext_bind_eq_ok_iff.mp h
  obtain ⟨_, h⟩ := requireMasked_bind_eq_ok_iff.mp h
  exact trace_of_giveUpCpu hq h hhooked

theorem trace_of_yieldNow (hq : hooks.QueryOnly) (h : yieldNow hooks k = .ok u k')
    (hhooked : k.hooked = true) : k.Decides k' := by
  unfold yieldNow at h
  obtain ⟨_, h⟩ := requireThreadContext_bind_eq_ok_iff.mp h
  exact trace_of_markedSection hq h hhooked

theorem trace_of_sleepUntil {wakeTick : Nat} (hq : hooks.QueryOnly)
    (h : sleepUntil hooks wakeTick k = .ok u k') (hhooked : k.hooked = true) : k.Decides k' := by
  unfold sleepUntil at h
  obtain ⟨_, h⟩ := requireThreadContext_bind_eq_ok_iff.mp h
  exact trace_of_markedSection hq h hhooked

/-- The process layer hears of an exit before the decision. -/
theorem trace_of_exit (hq : hooks.QueryOnly) (h : exit hooks k = .ok u k')
    (hhooked : k.hooked = true) :
    ∃ d : Dispatch, k'.trace = d.trace ++ (k.farewell ++ k.trace) := by
  unfold exit at h
  obtain ⟨_, h⟩ := requireThreadContext_bind_eq_ok_iff.mp h
  obtain ⟨id, hid, h⟩ := inspect_bind_eq_ok_iff.mp h
  rw [log_bind, bind_eq_ok_iff] at h
  obtain ⟨_, k₁, hcall, h⟩ := h
  obtain ⟨htrace, hhooked₁⟩ := trace_of_call (hq.exit id) hcall hhooked
  have hfarewell : k₁.trace = k.farewell ++ k.trace := by
    rw [htrace, farewell, Tables.currentId_eq_ok_iff.mp hid]
    rfl
  rw [setLevel_bind] at h
  obtain ⟨d, hd⟩ := trace_of_giveUpCpu hq h hhooked₁
  exact ⟨d, hd.trans (congrArg (d.trace ++ ·) hfarewell)⟩

/-- A thread that waits for a length of time leaves no trace but that of its decision. -/
theorem trace_of_realTimeSleep {num denom : Nat} {u : Unit} (hq : hooks.QueryOnly)
    (h : realTimeSleep hooks num denom k = .ok u k') (hwatched : k.Watched) :
    k'.trace = k.trace ∨ k.Decides k' := by
  unfold realTimeSleep at h
  rw [get_bind] at h
  obtain ⟨ticks, _, h⟩ := orFault_bind_eq_ok_iff.mp h
  obtain ⟨_, h⟩ := requireUnmasked_bind_eq_ok_iff.mp h
  split at h
  · have hsleep := sleepUntil_of_sleep h
    obtain ⟨d, t, hleave, _⟩ := core_of_sleepUntil hq hsleep
    have hprevious := (Tables.parting_of_leave hleave).previous
    exact .inr (trace_of_sleepUntil hq hsleep (hwatched _ hprevious))
  · obtain ⟨loops, _, h⟩ := orFault_bind_eq_ok_iff.mp h
    rw [busyWait, record, modify_eq_ok_iff] at h
    rw [h]
    exact .inl rfl

/-! ## The timer -/

theorem trace_of_tickKind {id : ThreadId} {idle : Bool} {kind : TickKind} (hq : hooks.QueryOnly)
    (h : tickKind hooks id idle k = .ok kind k') (hhooked : k.hooked = true) :
    k'.trace = (if idle then [] else [.hook .isUser id (Maskable.level k.cpu)]) ++ k.trace := by
  unfold tickKind at h
  split at h
  · next hidle =>
    obtain ⟨_, rfl⟩ := pure_eq_ok_iff.mp h
    rw [if_pos hidle]
    rfl
  · next hidle =>
    rw [bind_eq_ok_iff] at h
    obtain ⟨user, k₁, hcall, h⟩ := h
    obtain ⟨htrace, _⟩ := trace_of_call (hq.isUser id) hcall hhooked
    have hsame : k' = k₁ := by
      split at h
      · exact (pure_eq_ok_iff.mp h).2
      · exact (pure_eq_ok_iff.mp h).2
    rw [hsame, htrace, if_neg hidle]
    rfl

/-- A tick leaves the question about the thread that it interrupted. -/
theorem trace_of_tickThreads {now : Nat} (hq : hooks.QueryOnly)
    (h : tickThreads hooks now k = .ok u k') (hoff : Maskable.level k.cpu = .off)
    (hwatched : k.Watched) : k'.trace = k.question ++ k.trace := by
  unfold tickThreads at h
  rw [get_bind] at h
  split at h
  · next hup =>
    rw [bind_eq_ok_iff] at h
    obtain ⟨⟨id, idle, woken⟩, k₁, hwake, h⟩ := h
    obtain ⟨t, ht, hid, rfl, rfl⟩ := eq_of_wakeSleepers hwake
    have hrest := Tables.rest_of_wakeDue ht
    have hcurrent : k.tables.current = some id := by
      rw [hrest] at hid
      exact Tables.currentId_eq_ok_iff.mp hid
    have hidle : t.isIdle id = true ↔ k.tables.idle = some id := by
      rw [hrest]
      exact Tables.isIdle_iff
    dsimp only at h
    rw [bind_eq_ok_iff] at h
    obtain ⟨kind, k₂, hkind, h⟩ := h
    have htrace := trace_of_tickKind hq hkind (hwatched id hcurrent)
    rw [get_bind, bind_eq_ok_iff] at h
    obtain ⟨expired, k₃, hcharge, h⟩ := h
    obtain ⟨v, _, rfl⟩ := update_eq_ok_iff.mp hcharge
    -- the second section and the request for a yield are not traced
    have hlast : k'.trace = k₂.trace := by
      split at h
      · rw [requestYield, modify_eq_ok_iff] at h
        rw [h]
        rfl
      · obtain ⟨_, rfl⟩ := pure_eq_ok_iff.mp h
        rfl
    have hquestion : k.question = if t.isIdle id then [] else [.hook .isUser id .off] := by
      unfold question
      rw [hcurrent]
      simp only [hup, true_and, hidle, ne_eq, ite_not]
    rw [hlast, htrace, hquestion, hoff]
    rfl
  · next hdown =>
    obtain ⟨_, rfl⟩ := pure_eq_ok_iff.mp h
    have hnone : k'.question = [] := by
      unfold question
      split
      · rw [if_neg fun hboth => hdown hboth.1]
      · rfl
    rw [hnone]
    rfl

theorem trace_of_timerInterrupt (hq : hooks.QueryOnly) (h : timerInterrupt hooks k = .ok u k')
    (hwatched : k.Watched) : k'.trace = k.question ++ k.trace := by
  unfold timerInterrupt at h
  obtain ⟨hoff, h⟩ := requireMasked_bind_eq_ok_iff.mp h
  obtain ⟨_, h⟩ := requireThreadContext_bind_eq_ok_iff.mp h
  rw [setInInterrupt, modify_bind, bind_eq_ok_iff] at h
  obtain ⟨now, k₁, hadvance, h⟩ := h
  obtain ⟨_, _, rfl⟩ := eq_of_advanceClock hadvance
  rw [bind_eq_ok_iff] at h
  obtain ⟨_, k₂, htick, h⟩ := h
  rw [setInInterrupt, modify_eq_ok_iff] at h
  have htrace := trace_of_tickThreads hq htick hoff hwatched
  rw [h]
  exact htrace

/-- The yield that a tick asked for is decided after the question. -/
theorem trace_of_onTimerInterrupt (hq : hooks.QueryOnly)
    (h : onTimerInterrupt hooks k = .ok u k') (hwatched : k.Watched) :
    k'.trace = k.question ++ k.trace ∨
      ∃ d : Dispatch, k'.trace = d.trace ++ (k.question ++ k.trace) := by
  unfold onTimerInterrupt at h
  rw [bind_eq_ok_iff] at h
  obtain ⟨_, k₁, htimer, h⟩ := h
  have htrace := trace_of_timerInterrupt hq htimer hwatched
  rw [get_bind] at h
  split at h
  · rw [modify_bind] at h
    -- whoever yields is the thread that was interrupted, so there is a process layer
    obtain ⟨_, _, hticked⟩ := core_of_timerInterrupt hq htimer
    obtain ⟨d', t, hleave, _⟩ := core_of_yieldNow hq h
    have hprevious : k₁.tables.current = some d'.previous := (Tables.parting_of_leave hleave).previous
    have hcurrent : k.tables.current = some d'.previous := hticked.steady.2.2.1.symm.trans hprevious
    have hadds : k.Adds Event.Masked k₁ :=
      ((disciplined_timerInterrupt hq.disciplined).returns rfl htimer).2
    have hhooked : k₁.hooked = true := hadds.hooked (hwatched _ hcurrent)
    obtain ⟨d, hd⟩ := trace_of_yieldNow hq h hhooked
    exact .inr ⟨d, hd.trans (congrArg (d.trace ++ ·) htrace)⟩
  · obtain ⟨_, rfl⟩ := pure_eq_ok_iff.mp h
    exact .inl htrace

end Kernel

/-! ## Calls -/

namespace Call

open Act Kernel

variable {k k' : Kernel C} {r : Reply}

/-- What the process layer hears in a call before any decision. -/
def announces (k : Kernel C) : Call C.Body → List (Event C.Note)
  | exit => k.farewell
  | timerInterrupt => k.question
  | onTimerInterrupt => k.question
  | _ => []

/-- Whether the thread that makes a call gives up the processor in any case. -/
def isDeparture {γ : Type} : Call γ → Bool
  | block => true
  | yieldNow => true
  | exit => true
  | sleepUntil _ => true
  | sleep _ => true
  | _ => false

/-- The trace of a call from `k` to `k'`. -/
inductive Traces (c : Call C.Body) (k k' : Kernel C) : Prop where
  /-- There was no decision. -/
  | quiet (stays : c.isDeparture = false) (decisions : k'.decisions = k.decisions)
      (trace : k'.trace = c.announces k ++ k.trace)
  /-- There was one decision, after what was announced. -/
  | decided (d : Dispatch) (previous : k.tables.current = some d.previous)
      (next : k'.tables.current = some d.next) (decisions : k'.decisions = d :: k.decisions)
      (trace : k'.trace = d.trace ++ (c.announces k ++ k.trace))

theorem isAnnouncement_of_mem {c : Call C.Body} {e : Event C.Note} (he : e ∈ c.announces k) :
    e.isAnnouncement = true := by
  have hfarewell (he : e ∈ k.farewell) : e.isAnnouncement = true := by
    unfold farewell at he
    split at he
    · rw [List.mem_singleton.mp he]
      rfl
    · cases he
  have hquestion (he : e ∈ k.question) : e.isAnnouncement = true := by
    unfold question at he
    split at he
    · split at he
      · rw [List.mem_singleton.mp he]
        rfl
      · cases he
    · cases he
  cases c with
  | exit => exact hfarewell he
  | timerInterrupt => exact hquestion he
  | onTimerInterrupt => exact hquestion he
  | _ => cases he

theorem decision?_of_announces {c : Call C.Body} :
    (c.announces k).filterMap (·.decision?) = [] :=
  List.filterMap_eq_nil_iff.mpr fun _ he =>
    Event.decision?_of_isAnnouncement (isAnnouncement_of_mem he)

theorem decision?_of_trace (d : Dispatch) :
    (d.trace : List (Event C.Note)).filterMap (·.decision?) = [d] := by
  unfold Dispatch.trace
  split <;> rfl

theorem traces_of_quiet {c : Call C.Body} (hstays : c.isDeparture = false)
    (htrace : k'.trace = c.announces k ++ k.trace) : c.Traces k k' := by
  refine .quiet hstays ?_ htrace
  rw [decisions_eq_of_trace, htrace, List.filterMap_append, decision?_of_announces,
    decisions_eq_of_trace]
  rfl

/-- The decision in the trace is the one that the call made. -/
theorem traces_of_decided {c : Call C.Body} {d : Dispatch} (heffect : Core.Effect k.core c k'.core)
    (htrace : k'.trace = d.trace ++ (c.announces k ++ k.trace)) : c.Traces k k' := by
  have hdecisions : k'.decisions = d :: k.decisions := by
    rw [decisions_eq_of_trace, htrace, List.filterMap_append, List.filterMap_append,
      decision?_of_announces, decision?_of_trace, decisions_eq_of_trace]
    rfl
  rcases heffect.quiet_or_decided with hnone | ⟨m, way, d', hmade⟩
  · have hsame := congrArg List.length (hdecisions.symm.trans hnone.decisions)
    exact absurd hsame (Nat.succ_ne_self _)
  · obtain rfl : d = d' := (List.cons.inj (hdecisions.symm.trans hmade.decisions)).1
    exact .decided d hmade.previous (Tables.parting_of_leave hmade.leave).current hdecisions htrace

/-- With a process layer installed in time, the trace of a call is the trace of its decision, if it
makes one, after what it announces. -/
theorem traces {c : Call C.Body} (hq : hooks.QueryOnly) (hwatched : k.Watched)
    (h : c.perform hooks k = .ok r k') : c.Traces k k' := by
  have heffect := Call.effect hq h
  -- whoever leaves was current, so the process layer is there
  have hgone {way : Way} {d' : Dispatch} {t : Tables C.Body}
      (hleave : k.tables.leave way = .ok (d', t))
      (hdecides : k.hooked = true → ∃ d : Dispatch, k'.trace = d.trace ++ (c.announces k ++ k.trace)) :
      c.Traces k k' := by
    obtain ⟨d, hd⟩ := hdecides (hwatched _ (Tables.parting_of_leave hleave).previous)
    exact traces_of_decided heffect hd
  have hwaits {num denom : Nat} (hc : c.isDeparture = false) (hnone : c.announces k = [])
      (hwait : ∃ u, Kernel.realTimeSleep hooks num denom k = .ok u k') : c.Traces k k' := by
    obtain ⟨u, hwait⟩ := hwait
    rcases trace_of_realTimeSleep hq hwait hwatched with hsame | ⟨d, hd⟩
    · exact traces_of_quiet hc (by rw [hnone]; exact hsame)
    · exact traces_of_decided heffect (d := d) (by rw [hnone]; exact hd)
  by_cases hc : c.isScheduling = true
  · cases c with
    | block =>
      obtain ⟨u, h⟩ := ok_of_bind_pure h
      obtain ⟨_, _, hleave, _⟩ := core_of_block hq h
      exact hgone hleave (trace_of_block hq h)
    | yieldNow =>
      obtain ⟨u, h⟩ := ok_of_bind_pure h
      obtain ⟨_, _, hleave, _⟩ := core_of_yieldNow hq h
      exact hgone hleave (trace_of_yieldNow hq h)
    | exit =>
      obtain ⟨u, h⟩ := ok_of_bind_pure h
      obtain ⟨_, _, hleave, _⟩ := core_of_exit hq h
      exact hgone hleave (trace_of_exit hq h)
    | sleepUntil w =>
      obtain ⟨u, h⟩ := ok_of_bind_pure h
      obtain ⟨_, _, hleave, _⟩ := core_of_sleepUntil hq h
      exact hgone hleave (trace_of_sleepUntil hq h)
    | sleep n =>
      obtain ⟨u, h⟩ := ok_of_bind_pure h
      obtain ⟨_, _, hleave, _⟩ := core_of_sleep hq h
      exact hgone hleave (trace_of_sleepUntil hq (sleepUntil_of_sleep h))
    | realTimeSleep => exact hwaits rfl rfl (ok_of_bind_pure h)
    | sleepMillis => exact hwaits rfl rfl (ok_of_bind_pure h)
    | sleepMicros => exact hwaits rfl rfl (ok_of_bind_pure h)
    | sleepNanos => exact hwaits rfl rfl (ok_of_bind_pure h)
    | sleepFor => exact hwaits rfl rfl (ok_of_bind_pure h)
    | timerInterrupt =>
      obtain ⟨u, h⟩ := ok_of_bind_pure h
      exact traces_of_quiet rfl (trace_of_timerInterrupt hq h hwatched)
    | onTimerInterrupt =>
      obtain ⟨u, h⟩ := ok_of_bind_pure h
      rcases trace_of_onTimerInterrupt hq h hwatched with htrace | ⟨d, hd⟩
      · exact traces_of_quiet rfl htrace
      · exact traces_of_decided heffect hd
    | _ => cases hc
  · have hsilent : (Discipline.untraced C).returned k k' :=
      ((disciplined_inner ((Bool.not_eq_true _).mp hc)).returns rfl h).2
    have hnone : c.announces k = [] ∧ c.isDeparture = false := by
      cases c with
      | block => exact absurd rfl hc
      | yieldNow => exact absurd rfl hc
      | exit => exact absurd rfl hc
      | sleepUntil => exact absurd rfl hc
      | sleep => exact absurd rfl hc
      | timerInterrupt => exact absurd rfl hc
      | onTimerInterrupt => exact absurd rfl hc
      | _ => exact ⟨rfl, rfl⟩
    exact traces_of_quiet hnone.2 (by rw [hnone.1]; exact trace_of_untraced hsilent)

end Call
end RoundRobin
