import Mathlib.Data.List.Basic
import RoundRobin.Proofs.Kernel.Cues
import RoundRobin.Proofs.Kernel.Trace
import RoundRobin.Proofs.Kernel.Trampoline

/-!
# What hooks tell

The history says that a hook was called. Here the hooks speak for themselves: a process layer `Tells` if
each of its hooks, when it runs, notes which hook it is, whom it was called for, and the level and the
current thread that it finds. The trace can then be told again from these notes, without what the kernel
noted of its calls; that it is the same trace says that every call was made, and made once.
-/

namespace RoundRobin

variable {C : Client} {hooks : Hooks C} {α : Type}

/-- What a hook that runs can tell. -/
structure HookCall where
  point : HookPoint
  /-- For whom it was called. -/
  id : ThreadId
  level : Level
  current : Option ThreadId
deriving DecidableEq, Repr

namespace Event

variable {ν : Type} {mark : ν → Option HookCall}

/-- The call that a hook tells of. `mark` reads the notes of hooks. -/
def told? (mark : ν → Option HookCall) : Event ν → Option HookCall
  | note n => mark n
  | _ => none

/-- The trace told again: a call of a hook is in it if the hook tells of it. -/
def retold? (mark : ν → Option HookCall) : Event ν → Option (Event ν)
  | note n => (mark n).map fun c => .hook c.point c.id c.level
  | dispatched previous next l => some (.dispatched previous next l)
  | switched l => some (.switched l)
  | _ => none

/-- What a hook has to tell that is called for the current thread. -/
def call? : Event ν → Option HookCall
  | hook point id l => some ⟨point, id, l, some id⟩
  | _ => none

theorem retold?_of_isReport {e : Event ν} (h : e.isReport = true) :
    e.retold? mark = (e.told? mark).map fun c => .hook c.point c.id c.level := by
  unfold isReport at h
  split at h
  · rfl
  · rfl
  · rfl
  · cases h

end Event

/-- The operation only asks, and it tells once of its call as a hook. -/
def Act.Tells (mark : C.Note → Option HookCall) (point : HookPoint) (id : ThreadId)
    (act : Act C α) : Prop :=
  ∀ k a k', act k = .ok a k' → ∃ reports client, (∀ e ∈ reports, e.isReport = true) ∧
    reports.filterMap (·.told? mark) = [⟨point, id, Maskable.level k.cpu, k.tables.current⟩] ∧
    k' = { k with history := reports ++ k.history, client }

/-- The hooks of a process layer tell of their calls. -/
structure Hooks.Tell (mark : C.Note → Option HookCall) (hooks : Hooks C) : Prop where
  activate : ∀ id, (hooks.activate id).Tells mark .activate id
  exit : ∀ id, (hooks.exit id).Tells mark .exit id
  isUser : ∀ id, (hooks.isUser id).Tells mark .isUser id

namespace Kernel

variable {k k' : Kernel C} {mark : C.Note → Option HookCall}

/-- The calls that hooks told of, the last one first. -/
def told (mark : C.Note → Option HookCall) (k : Kernel C) : List HookCall :=
  k.history.filterMap (·.told? mark)

/-- The trace as it is told again. -/
def retold (mark : C.Note → Option HookCall) (k : Kernel C) : List (Event C.Note) :=
  k.history.filterMap (·.retold? mark)

/-- The hooks told of all their calls, and of nothing else. -/
structure Told (mark : C.Note → Option HookCall) (k : Kernel C) : Prop where
  /-- The trace can be told from what they noted, in the same order. -/
  retold : k.retold mark = k.trace
  /-- Each was called for the current thread. -/
  calls : k.told mark = k.trace.filterMap (·.call?)

/-- If the hooks told all in `k`, so they did in `k'`. -/
def StaysTold (mark : C.Note → Option HookCall) (k k' : Kernel C) : Prop :=
  k.Told mark → k'.Told mark

/-- All stays told if what is added to the history is told as it is traced. -/
theorem staysTold_of_append (new : List (Event C.Note)) (h : k'.history = new ++ k.history)
    (hretold : new.filterMap (·.retold? mark) = new.filter (·.isTraced))
    (hcalls : new.filterMap (·.told? mark) = (new.filter (·.isTraced)).filterMap (·.call?)) :
    k.StaysTold mark k' := by
  intro hk
  constructor
  · unfold Kernel.retold trace
    rw [h, List.filterMap_append, List.filter_append, hretold]
    exact congrArg (_ ++ ·) hk.retold
  · unfold Kernel.told trace
    rw [h, List.filterMap_append, List.filter_append, List.filterMap_append, hcalls]
    exact congrArg (_ ++ ·) hk.calls

theorem staysTold_of_history (h : k'.history = k.history) : k.StaysTold mark k' :=
  staysTold_of_append [] h rfl rfl

/-- An event that no hook has part in is told as it is traced. -/
theorem staysTold_of_record {e : Event C.Note} (h : k'.history = e :: k.history)
    (hretold : [e].filterMap (·.retold? mark) = [e].filter (·.isTraced))
    (hcalls : [e].filterMap (·.told? mark) = ([e].filter (·.isTraced)).filterMap (·.call?)) :
    k.StaysTold mark k' :=
  staysTold_of_append [e] h hretold hcalls

/-- A hook that is called for the current thread tells what is noted of its call. -/
theorem staysTold_of_call {point : HookPoint} {id : ThreadId} {absent a : α} {act : Act C α}
    (htells : act.Tells mark point id) (hcurrent : k.tables.current = some id)
    (h : Hooks.call point id absent act k = .ok a k') : k'.cpu = k.cpu ∧ k.StaysTold mark k' := by
  unfold Hooks.call at h
  rw [Act.get_bind] at h
  split at h
  · rw [Act.level_bind, Act.record_bind] at h
    obtain ⟨reports, client, hreports, htold, rfl⟩ := htells _ _ _ h
    have hsilent : reports.filter (·.isTraced) = [] :=
      List.filter_eq_nil_iff.mpr fun e he => by
        rw [Event.not_isTraced_of_isReport (hreports e he)]; exact nofun
    have hretold : reports.filterMap (·.retold? mark) = [.hook point id (Maskable.level k.cpu)] := by
      rw [List.filterMap_congr fun e he => Event.retold?_of_isReport (hreports e he),
        ← List.map_filterMap, htold]
      rfl
    refine ⟨rfl, staysTold_of_append (reports ++ [.hook point id (Maskable.level k.cpu)])
      (List.append_cons ..) ?_ ?_⟩
    · rw [List.filterMap_append, List.filter_append, hretold, hsilent]
      rfl
    · rw [List.filterMap_append, List.filter_append, htold, hsilent, hcurrent]
      rfl
  · obtain ⟨_, rfl⟩ := Act.pure_eq_ok_iff.mp h
    exact ⟨rfl, fun hk => hk⟩

end Kernel

/-! ## Calls -/

/-- Hooks that told all go on to do so. -/
def Discipline.telling (mark : C.Note → Option HookCall) : Discipline C where
  returned k k' := k.StaysTold mark k'
  stopped _ _ := True
  trans h h' := fun hk => h' (h hk)
  stay _ := trivial
  later _ _ := trivial
  still hhistory _ _ := Kernel.staysTold_of_history hhistory
  logged m _ := Kernel.staysTold_of_record (e := .log m) rfl rfl rfl
  updated _ _ := Kernel.staysTold_of_record (e := .updated .off) rfl rfl rfl

namespace Hooks

/-- The operation is for the current thread only. -/
def forCurrent (id : ThreadId) (act : Act C α) : Act C α := fun k =>
  if k.tables.current = some id then act k else .error .currentNotRunning k

/-- A process layer that does not take calls for any but the current thread. -/
def onCue (hooks : Hooks C) : Hooks C where
  activate id := forCurrent id (hooks.activate id)
  exit id := forCurrent id (hooks.exit id)
  isUser id := forCurrent id (hooks.isUser id)

/-- A kernel makes no other calls. -/
theorem sameOnCue_onCue (hooks : Hooks C) : hooks.SameOnCue hooks.onCue where
  activate hcurrent _ := (if_pos hcurrent).symm
  exit hcurrent := (if_pos hcurrent).symm
  isUser _ _ _ _ hcurrent _ _ := (if_pos hcurrent).symm

/-- Hooks that tell of their calls told all along. -/
theorem Tell.disciplined {mark : C.Note → Option HookCall} (h : hooks.Tell mark) :
    hooks.onCue.Disciplined (.telling mark) := by
  have hcall {β : Type} {act : Act C β} {point : HookPoint} {id : ThreadId}
      (htells : act.Tells mark point id) (absent : β) (l : Level) :
      (call point id absent (forCurrent id act)).Disciplined (.telling mark) l fun _ => l := by
    refine ⟨fun {k a k'} hl hok => ?_, fun _ _ => trivial⟩
    by_cases hcurrent : k.tables.current = some id
    · have hsame : call point id absent (forCurrent id act) k = call point id absent act k :=
        call_congr (if_pos hcurrent)
      obtain ⟨hcpu, hstays⟩ := Kernel.staysTold_of_call htells hcurrent (hsame ▸ hok)
      exact ⟨hcpu ▸ hl, hstays⟩
    · -- only a call without a process layer comes back
      unfold call at hok
      rw [Act.get_bind] at hok
      split at hok
      · rw [Act.level_bind, Act.record_bind, forCurrent, if_neg hcurrent] at hok
        cases hok
      · obtain ⟨_, rfl⟩ := Act.pure_eq_ok_iff.mp hok
        exact ⟨hl, fun hk => hk⟩
  exact {
    schedules := {
      spun := fun n _ => Kernel.staysTold_of_record (e := .spun n) rfl rfl rfl
      dispatched := fun d _ =>
        Kernel.staysTold_of_record (e := .dispatched d.previous d.next .off) rfl rfl rfl
      switched := fun _ => Kernel.staysTold_of_record (e := .switched .off) rfl rfl rfl }
    activate := fun id => hcall (h.activate id) ()
    exit := fun id => hcall (h.exit id) ()
    isUser := fun id => hcall (h.isUser id) false }

end Hooks

variable {mark : C.Note → Option HookCall} {k k' : Kernel C} {calls : List (Call C.Body)}
  {c : Call C.Body} {r : Reply}

theorem Call.staysTold (htell : hooks.Tell mark) (h : c.perform hooks k = .ok r k') :
    k.StaysTold mark k' := by
  rw [Call.perform_congr hooks.sameOnCue_onCue] at h
  exact ((c.disciplined htell.disciplined).returns rfl h).2

theorem Run.told {allowed : Kernel C → Call C.Body → Prop} (htell : hooks.Tell mark)
    (hk : k.Told mark) (hrun : Run hooks allowed k calls k') : k'.Told mark := by
  induction hrun with
  | nil => exact hk
  | snoc _ _ step ih => exact Call.staysTold htell step ih

/-! ## Trampolines -/

namespace Kernel

open Act

end Kernel
end RoundRobin
