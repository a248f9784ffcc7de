import RoundRobin.Proofs.Tables.Ledger
import RoundRobin.Proofs.Tables.Progress

/-!
# Tables without an entry

The trampoline takes the entry out of the current thread. Nothing in the scheduler depends on what a
thread has still to run, so whatever holds of the tables before holds of them afterwards.
-/

namespace RoundRobin.Tables

variable {β : Type} {t : Tables β} {id i : ThreadId} {th : Thread β} {made n : Nat}

/-- The tables with a thread that has begun: what it has to run was taken out. -/
def begun (id : ThreadId) (t : Tables β) : Tables β :=
  t.modifyThread id fun th => { th with entry := none }

theorem find?_begun (i : ThreadId) : (t.begun id).threads.find? i
    = (t.threads.find? i).map fun th => if i = id then { th with entry := none } else th :=
  find?_modifyThread (f := fun th => { th with entry := none }) (fun _ => rfl) i

/-- Every thread was there before, and only in its entry it may differ. -/
theorem of_find?_begun {th' : Thread β} (h : (t.begun id).threads.find? i = some th') :
    ∃ th, t.threads.find? i = some th ∧ th' = { th with entry := th'.entry } := by
  obtain ⟨th, hth, rfl⟩ := ThreadTable.of_find?_modify h fun _ => rfl
  refine ⟨th, hth, ?_⟩
  split <;> rfl

/-- The thread that has begun has nothing to run any more, -/
theorem entry_begun {th' : Thread β} (h : (t.begun id).threads.find? id = some th') :
    th'.entry = none := by
  rw [find?_begun] at h
  obtain ⟨th, _, rfl⟩ := Option.map_eq_some_iff.mp h
  rw [if_pos rfl]

/-- and the others are what they were. -/
theorem find?_begun_ne (h : i ≠ id) : (t.begun id).threads.find? i = t.threads.find? i := by
  rw [find?_begun]
  cases t.threads.find? i with
  | none => rfl
  | some th => rw [Option.map_some, if_neg h]

theorem lives_begun (i : ThreadId) :
    ((t.begun id).threads.find? i).isSome = (t.threads.find? i).isSome := by
  rw [find?_begun, Option.isSome_map]

@[simp] theorem statusOf_begun (i : ThreadId) : (t.begun id).statusOf i = t.statusOf i :=
  statusOf_modifyThread (f := fun th => { th with entry := none }) fun _ => ⟨rfl, rfl⟩

theorem Sound.begun (h : Sound t) : Sound (t.begun id) := by
  refine ⟨h.toFiled.keep (f := fun th => { th with entry := none }) rfl (fun _ => rfl) (fun _ => rfl)
    (fun _ => rfl) (fun _ => rfl) rfl, fun i th' hth' => ?_, ?_⟩
  · obtain ⟨th, hth, hsame⟩ := of_find?_begun hth'
    rw [hsame]
    exact h.placed i th hth
  · obtain ⟨c, th, hc, hth, hrun⟩ := h.current_runs
    have hstatus : (t.begun id).statusOf c = some .running :=
      (statusOf_begun c).trans (statusOf_eq_some_iff.mpr ⟨th, hth, hrun⟩)
    obtain ⟨th', hth', hrun'⟩ := statusOf_eq_some_iff.mp hstatus
    exact ⟨c, th', hc, hth', hrun'⟩

theorem Housed.begun (h : Housed t) : Housed (t.begun id) := by
  refine ⟨fun i th' hth' => ?_, fun i th' hth' hnone => ?_, fun i th' hth' page hpage => ?_,
    h.freeSize, h.inUse.trans (ThreadTable.size_modify _).symm, h.bounded, h.fits, h.room⟩
  · obtain ⟨th, hth, hsame⟩ := of_find?_begun hth'
    rw [hsame]
    exact h.intact i th hth
  · obtain ⟨th, hth, hsame⟩ := of_find?_begun hth'
    rw [hsame] at hnone
    exact h.paged i th hth hnone
  · obtain ⟨th, hth, hsame⟩ := of_find?_begun hth'
    rw [hsame] at hpage
    exact h.pageSize i th hth page hpage

theorem Owns.of_begun (h : (t.begun id).Owns i n) : t.Owns i n := by
  obtain ⟨th', page, hth', hpage, hn⟩ := h
  obtain ⟨th, hth, hsame⟩ := of_find?_begun hth'
  rw [hsame] at hpage
  exact ⟨th, page, hth, hpage, hn⟩

theorem Ledger.begun (h : Ledger made t) : Ledger made (t.begun id) where
  boot b hb n howns := h.boot b hb n howns.of_begun
  owned i n howns := h.owned i n howns.of_begun
  unshared i j n hi hj := h.unshared i j n hi.of_begun hj.of_begun
  free := h.free
  distinct := h.distinct
  unowned i n howns := h.unowned i n howns.of_begun
  allocated := h.allocated
  released := by
    rw [show (t.begun id).threads.size = t.threads.size from ThreadTable.size_modify _]
    exact h.released

theorem Attended.begun (h : Attended t) : Attended (t.begun id) := by
  intro i hi
  obtain ⟨th, hth, halive⟩ := h i hi
  have hsame : (t.begun id).statusOf i = t.statusOf i := statusOf_begun i
  obtain ⟨th', hth', hstatus⟩ := statusOf_eq_some_iff.mp
    (hsame.trans (statusOf_eq_some_iff.mpr ⟨th, hth, rfl⟩))
  exact ⟨th', hth', hstatus ▸ halive⟩

end RoundRobin.Tables
