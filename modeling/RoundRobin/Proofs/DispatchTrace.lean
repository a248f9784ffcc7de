import RoundRobin.Proofs.Kernel.Questions
import RoundRobin.Proofs.Kernel.Told

/-!
# The trace of dispatches

A process layer that was installed before the kernel was initialized hears of every dispatch. Each
decision activates the thread that it chose, once and with interrupts masked, and the processor goes
over to that thread if it is another one. Between decisions the process layer hears of every exit
before it happens, and is asked about every tick of a thread that is not the idle one. Hooks that note
their own calls note these.
-/

namespace RoundRobin

variable {C : Client} {hooks : Hooks C}

/-! ## What is counted -/

/-- Whether the next thread is another one. -/
def Dispatch.isSwitch (d : Dispatch) : Bool := decide (d.previous ≠ d.next)

namespace Event

variable {ν : Type}

/-- Whether the processor went over to another context. -/
def isSwitch : Event ν → Bool
  | switched _ => true
  | _ => false

/-- For whom a hook was called, and at which level. -/
def hookCall? (point : HookPoint) : Event ν → Option (ThreadId × Level)
  | hook p id l => if p = point then some (id, l) else none
  | _ => none

end Event

namespace Kernel

variable {k k' k₁ : Kernel C}

/-- The calls of one hook so far, the last one first. -/
def hookCalls (point : HookPoint) (k : Kernel C) : List (ThreadId × Level) :=
  k.history.filterMap (·.hookCall? point)

/-- A process layer was installed in time and heard of every dispatch, and switches are counted. -/
structure Traced (k : Kernel C) : Prop where
  watched : k.Watched
  /-- Apart from announcements, the trace is that of one decision after another. -/
  dispatches : k.trace.filter (fun e => !e.isAnnouncement) = k.decisions.flatMap Dispatch.trace
  counted : k.tables.switches = k.decisions.countP (·.isSwitch)
  carriedOut : k.cpu.switches = k.decisions.countP (·.isSwitch)

end Kernel

/-! ## Counts of switches -/

namespace Core

variable {s s' : Core C} {c : Call C.Body}

/-- Both counts of switches are the number of decisions for another thread. -/
structure Tallied (s : Core C) : Prop where
  byTables : s.tables.switches = s.decisions.countP (·.isSwitch)
  byProcessor : s.switches = s.decisions.countP (·.isSwitch)

theorem Tallied.left (h : s.Tallied) {way : Way} {d : Dispatch} {t : Tables C.Body}
    (ht : s.tables.leave way = .ok (d, t)) : (s.left d t).Tallied := by
  have hone : (d :: s.decisions).countP (·.isSwitch)
      = if d.previous = d.next then s.decisions.countP (·.isSwitch)
        else s.decisions.countP (·.isSwitch) + 1 := by
    rw [List.countP_cons]
    by_cases hsame : d.previous = d.next <;> simp [Dispatch.isSwitch, hsame]
  constructor
  · show t.switches = _
    rw [(Tables.parting_of_leave ht).switches, h.byTables]
    exact hone.symm
  · show (if d.previous = d.next then s.switches else s.switches + 1) = _
    rw [h.byProcessor]
    exact hone.symm

theorem kept_tallied : Kept (Tallied (C := C)) where
  later h _ := ⟨h.1, h.2⟩
  adopted h _ := ⟨h.1, h.2⟩
  hired h _ _ := ⟨h.1, h.2⟩
  appointed h _ _ _ := ⟨h.1, h.2⟩
  unblocked h ht := ⟨by rw [Tables.rest_of_unblock ht]; exact h.1, h.2⟩
  left h _ ht := h.left ht
  prioritized h _ := ⟨h.1, h.2⟩
  ticked h _ _ ht := ⟨by rw [ticked, Tables.rest_of_tick ht]; exact h.1, h.2⟩
  preempted h ht := Tallied.left (s := answered _) ⟨h.1, h.2⟩ ht

/-- The first thread becomes current when the kernel is initialized. -/
theorem Effect.current_of_none (h : Effect s c s') (hnone : s.tables.current = none) :
    c = .init ∨ s'.tables.current = none := by
  have hnobody {way : Way} {d : Dispatch} {t m : Tables C.Body} (hm : m.current = none)
      (hleave : m.leave way = .ok (d, t)) : False := by
    rw [(Tables.parting_of_leave hleave).previous] at hm
    cases hm
  cases h with
  | nothing => exact .inr hnone
  | advance => exact .inr hnone
  | adopt => exact .inl rfl
  | start => exact .inr hnone
  | create _ _ _ hunblock =>
    exact .inr ((congrArg Tables.current (Tables.rest_of_unblock hunblock)).trans hnone)
  | unblock hunblock =>
    exact .inr ((congrArg Tables.current (Tables.rest_of_unblock hunblock)).trans hnone)
  | leave _ hleave => exact (hnobody hnone hleave).elim
  | prioritize hcurrent => rw [hnone] at hcurrent; cases hcurrent
  | timerInterrupt _ _ ht => exact .inr (ht.steady.2.2.1.trans hnone)
  | tick _ _ ht => exact .inr (ht.steady.2.2.1.trans hnone)
  | preempt _ _ ht _ hleave => exact (hnobody (ht.steady.2.2.1.trans hnone) hleave).elim

end Core

/-! ## Calls -/

namespace Kernel

variable {k k' k₁ : Kernel C} {c : Call C.Body} {r : Reply}

theorem dispatches_of_trace (d : Dispatch) :
    (d.trace : List (Event C.Note)).filter (fun e => !e.isAnnouncement) = d.trace := by
  unfold Dispatch.trace
  split <;> rfl

/-- An initialized kernel stays watched, and one becomes initialized only when it is watched. -/
theorem Watched.perform (hk : k.Watched) (hq : hooks.QueryOnly)
    (hfirst : c = .init → k.hooked = true) (h : c.perform hooks k = .ok r k') : k'.Watched := by
  intro id hid
  refine (Call.adds_masked hq h).2.hooked ?_
  cases hcurrent : k.tables.current with
  | some id' => exact hk id' hcurrent
  | none =>
    rcases (Call.effect hq h).current_of_none hcurrent with hinit | hnone
    · exact hfirst hinit
    · rw [show k'.tables.current = none from hnone] at hid
      cases hid

/-- A call keeps the trace complete and the counts right. -/
theorem Traced.perform (hk : k.Traced) (hq : hooks.QueryOnly)
    (hfirst : c = .init → k.hooked = true) (h : c.perform hooks k = .ok r k') : k'.Traced := by
  have htallied : k'.core.Tallied :=
    Core.kept_tallied.effect ⟨hk.counted, hk.carriedOut⟩ (Call.effect hq h)
  have hsilent : (c.announces k).filter (fun e => !e.isAnnouncement) = [] :=
    List.filter_eq_nil_iff.mpr fun e he => by rw [Call.isAnnouncement_of_mem he]; exact nofun
  refine ⟨hk.watched.perform hq hfirst h, ?_, htallied.byTables, htallied.byProcessor⟩
  cases Call.traces hq hk.watched h with
  | quiet _ hdecisions htrace =>
    rw [htrace, List.filter_append, hsilent, hdecisions]
    exact hk.dispatches
  | decided d _ _ hdecisions htrace =>
    rw [htrace, List.filter_append, List.filter_append, hsilent, dispatches_of_trace, hdecisions,
      List.flatMap_cons]
    exact congrArg (d.trace ++ ·) hk.dispatches

/-! ## What is read off the trace -/

/-- What the hooks of one point told of is what was noted of their calls. -/
theorem Told.filter {mark : C.Note → Option HookCall} (hk : k.Told mark) (point : HookPoint) :
    (k.told mark).filter (·.point = point)
      = (k.hookCalls point).map fun c => ⟨point, c.1, c.2, some c.1⟩ := by
  rw [hk.calls]
  unfold hookCalls trace
  rw [List.filterMap_filter, List.filter_filterMap, List.map_filterMap]
  congr 1
  funext e
  cases e with
  | hook point' id l =>
    by_cases hpoint : point' = point
    · subst hpoint
      simp [Event.isTraced, Event.call?, Event.hookCall?]
    · simp [Event.isTraced, Event.call?, Event.hookCall?, hpoint]
  | _ => rfl

/-- The trace and the counts say all that matters to being traced. -/
theorem Traced.congr (hk : k.Traced) (htrace : k'.trace = k.trace)
    (hcurrent : k'.tables.current = k.tables.current)
    (hswitches : k'.tables.switches = k.tables.switches) (hcpu : k'.cpu.switches = k.cpu.switches)
    (hhooked : k'.hooked = k.hooked) : k'.Traced := by
  have hdecisions : k'.decisions = k.decisions := by
    rw [decisions_eq_of_trace, htrace, ← decisions_eq_of_trace]
  refine ⟨fun id hid => ?_, ?_, ?_, ?_⟩
  · rw [hhooked]
    exact hk.watched id (hcurrent ▸ hid)
  · rw [htrace, hdecisions]
    exact hk.dispatches
  · rw [hswitches, hdecisions]
    exact hk.counted
  · rw [hcpu, hdecisions]
    exact hk.carriedOut

end Kernel

/-! ## Runs -/

section Runs

variable {allowed : Kernel C → Call C.Body → Prop} {k k' k₁ : Kernel C} {calls : List (Call C.Body)}
  {c : Call C.Body} {r : Reply}

end Runs

end RoundRobin
