import RoundRobin.Proofs.Tables.Decision
import RoundRobin.Proofs.Tables.Ready

/-!
# What a tick does to the tables

The handler of the timer opens two critical sections, with a question to the process layer between
them: sleepers are readied, then the tick is charged. `tick` is both in one.
-/

namespace RoundRobin

namespace TickStats

variable {s s' : TickStats}

/-- The ticks of a kind. -/
def of (s : TickStats) : TickKind → Nat
  | .idle => s.idle
  | .kernel => s.kernel
  | .user => s.user

/-- One more tick of a kind. -/
def plus (s : TickStats) : TickKind → TickStats
  | .idle => { s with idle := s.idle + 1 }
  | .kernel => { s with kernel := s.kernel + 1 }
  | .user => { s with user := s.user + 1 }

theorem eq_plus_of_charge {kind : TickKind} (h : s.charge kind = .ok s') : s' = s.plus kind := by
  unfold charge at h
  split at h
  all_goals
    rw [Fault.bind_eq_ok_iff] at h
    obtain ⟨n, hn, h⟩ := h
    rw [Fault.pure_eq_ok_iff.mp h, (checkedAdd_eq_ok_iff.mp hn).2]
    rfl

theorem of_plus (s : TickStats) (kind other : TickKind) :
    (s.plus kind).of other = s.of other + if kind = other then 1 else 0 := by
  cases kind <;> cases other <;> rfl

theorem sum_plus (s : TickStats) (kind : TickKind) :
    (s.plus kind).idle + (s.plus kind).kernel + (s.plus kind).user
      = s.idle + s.kernel + s.user + 1 := by
  cases kind
  all_goals
    simp only [plus]
    omega

/-- A total that fits is the sum. -/
theorem total_eq_ok (h : s.idle + s.kernel + s.user ≤ Word.top) :
    s.total = .ok (s.idle + s.kernel + s.user) := by
  unfold total
  rw [checkedAdd_eq_ok (Nat.le_trans (Nat.le_add_right _ _) h)]
  exact checkedAdd_eq_ok h

end TickStats

namespace Tables

variable {β : Type} {t t' u : Tables β} {now timeSlice : Nat} {user asks : Bool}

/-- Who is charged for a tick, of the idle thread, threads that run a user program and the others. -/
def kindOf (idle user : Bool) : TickKind := if idle then .idle else if user then .user else .kernel

/-- A tick, and whether it asks for a yield: it ends the slice, or it wakes somebody while the idle
thread runs. -/
def tick (user : Bool) (now timeSlice : Nat) (t : Tables β) : Except Fault (Bool × Tables β) := do
  let (woken, t) ← t.wakeDue now
  let id ← t.currentId
  let idle := t.isIdle id
  let (expired, t) ← t.charge (kindOf idle user) timeSlice
  return (expired || idle && decide (0 < woken), t)

/-- The tables after a tick was charged. -/
def charged (stats : TickStats) (t : Tables β) : Tables β :=
  { t with stats, sliceTicks := t.sliceTicks + 1 }

theorem charge_eq_ok_iff {kind : TickKind} {expired : Bool} :
    t.charge kind timeSlice = .ok (expired, t') ↔ ∃ stats, t.stats.charge kind = .ok stats ∧
      t.sliceTicks ≠ Word.top32 ∧ expired = decide (timeSlice ≤ t.sliceTicks + 1) ∧
      t' = t.charged stats := by
  unfold charge charged
  rw [Fault.bind_eq_ok_iff]
  refine exists_congr fun stats => and_congr_right fun _ => ?_
  split
  · next h => simp [h, throw, throwThe, MonadExceptOf.throw]
  · next h =>
    rw [Fault.pure_eq_ok_iff, Prod.mk.injEq]
    exact ⟨fun e => ⟨h, e.1, e.2⟩, fun e => e.2⟩

/-- A tick, step by step: the due sleepers are readied, and the current thread is charged. -/
theorem tick_eq_ok_iff :
    t.tick user now timeSlice = .ok (asks, t') ↔ ∃ woken u c stats,
      t.wakeDue now = .ok (woken, u) ∧ u.current = some c ∧
      u.stats.charge (kindOf (u.isIdle c) user) = .ok stats ∧ u.sliceTicks ≠ Word.top32 ∧
      asks = (decide (timeSlice ≤ u.sliceTicks + 1) || u.isIdle c && decide (0 < woken)) ∧
      t' = u.charged stats := by
  unfold tick
  simp only [Fault.bind_eq_ok_iff, Prod.exists, currentId_eq_ok_iff, charge_eq_ok_iff,
    Fault.pure_eq_ok_iff, Prod.mk.injEq]
  constructor
  · rintro ⟨woken, u, hw, c, hc, _, _, ⟨stats, hs, hslice, rfl, rfl⟩, rfl, rfl⟩
    exact ⟨woken, u, c, stats, hw, hc, hs, hslice, rfl, rfl⟩
  · rintro ⟨woken, u, c, stats, hw, hc, hs, hslice, rfl, rfl⟩
    exact ⟨woken, u, hw, c, hc, _, _, ⟨stats, hs, hslice, rfl, rfl⟩, rfl, rfl⟩

theorem Sound.tick (h : Sound t) (ht : t.tick user now timeSlice = .ok (asks, t')) : Sound t' := by
  obtain ⟨woken, u, c, stats, hw, _, _, _, _, rfl⟩ := tick_eq_ok_iff.mp ht
  exact (h.wakeDue hw).congr rfl rfl rfl rfl rfl rfl rfl

end Tables
end RoundRobin
