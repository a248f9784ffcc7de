import Mathlib.Data.List.Rotate
import RoundRobin.Proofs.Tables.Scene

/-!
# The line of threads

The current thread and the queue behind it are one line. As long as nobody is woken and the idle thread
stays out of it, ticks do nothing to the line but to rotate it, by one place for each slice that is used
up. That holds tick by tick, and so for any number of ticks.
-/

namespace RoundRobin

variable {β : Type} {s s' s'' : Scene β} {c : ThreadId} {kind : TickKind} {now timeSlice m n : Nat}

namespace Scene

/-- The current thread, and behind it those who are ready. -/
def line (s : Scene β) : List ThreadId := s.current.toList ++ s.queue

/-- A thread other than the idle one runs, and nobody stands in line twice. -/
structure Working (s : Scene β) : Prop where
  runs : s.current.isSome = true
  nodup : s.line.Nodup
  notIdle : ∀ i ∈ s.line, s.idle ≠ some i

/-- What `n` ticks that wake nobody make of a scene. -/
structure Turned (timeSlice n : Nat) (s s' : Scene β) : Prop where
  runs : s'.current.isSome = s.current.isSome
  line : s'.line = s.line.rotate ((s.sliceTicks + n) / timeSlice)
  slice : s'.sliceTicks = (s.sliceTicks + n) % timeSlice
  /-- A thread that is alone in the line takes over from itself. -/
  switches : s'.switches
    = s.switches + if s.queue = [] then 0 else (s.sliceTicks + n) / timeSlice
  idle : s'.idle = s.idle
  sleepers : s'.sleepers = s.sleepers

theorem line_of_current (hc : s.current = some c) : s.line = c :: s.queue := by
  rw [line, hc]
  rfl

theorem length_line (hruns : s.current.isSome = true) : s.line.length = s.queue.length + 1 := by
  obtain ⟨c, hc⟩ := Option.isSome_iff_exists.mp hruns
  rw [line_of_current hc, List.length_cons]

/-- Ticks do not change who is in the line. -/
theorem Working.turned (h : Working s) (ht : Turned timeSlice n s s') : Working s' := by
  refine ⟨ht.runs.trans h.runs, ?_, fun i hi => ?_⟩
  · rw [ht.line]
    exact List.nodup_rotate.mpr h.nodup
  · rw [ht.line, List.mem_rotate] at hi
    rw [ht.idle]
    exact h.notIdle i hi

/-- Where somebody runs, the queue is as long as it was. -/
theorem Turned.queue_eq_nil (h : Turned timeSlice n s s') (hruns : s.current.isSome = true) :
    s'.queue = [] ↔ s.queue = [] := by
  have hlength := congrArg List.length h.line
  rw [List.length_rotate, length_line hruns, length_line (h.runs.trans hruns)] at hlength
  rw [← List.length_eq_zero_iff, ← List.length_eq_zero_iff]
  omega

/-- No tick at all. -/
theorem Turned.refl (hslice : s.sliceTicks < timeSlice) : Turned timeSlice 0 s s := by
  constructor
  · rfl
  · rw [Nat.add_zero, Nat.div_eq_of_lt hslice, List.rotate_zero]
  · rw [Nat.add_zero, Nat.mod_eq_of_lt hslice]
  · rw [Nat.add_zero, Nat.div_eq_of_lt hslice, ite_self, Nat.add_zero]
  · rfl
  · rfl

/-- Some ticks, and then some more. -/
theorem Turned.trans (hruns : s.current.isSome = true) (hpos : 0 < timeSlice)
    (h : Turned timeSlice m s s') (h' : Turned timeSlice n s' s'') :
    Turned timeSlice (m + n) s s'' := by
  -- the slices that the first ticks use up, and what they leave of one, count the later ones
  have hsum : s.sliceTicks + (m + n)
      = s'.sliceTicks + n + (s.sliceTicks + m) / timeSlice * timeSlice := by
    have hdiv := Nat.div_add_mod' (s.sliceTicks + m) timeSlice
    rw [h.slice]
    omega
  have hdiv : (s.sliceTicks + (m + n)) / timeSlice
      = (s.sliceTicks + m) / timeSlice + (s'.sliceTicks + n) / timeSlice := by
    rw [hsum, Nat.add_mul_div_right _ _ hpos, Nat.add_comm]
  refine ⟨h'.runs.trans h.runs, ?_, ?_, ?_, h'.idle.trans h.idle, h'.sleepers.trans h.sleepers⟩
  · rw [h'.line, h.line, List.rotate_rotate, hdiv]
  · rw [h'.slice, hsum, Nat.add_mul_mod_self_right]
  · rw [h'.switches, h.switches, hdiv]
    simp only [h.queue_eq_nil hruns]
    split
    · rfl
    · rw [Nat.add_assoc]

/-! ## One tick -/

/-- A working thread that yields goes to the end of the line. -/
theorem yield_of_working (h : Working s) (hc : s.current = some c) :
    (s.yield c).line = s.line.rotate 1 ∧ (s.yield c).current.isSome = true ∧
      (s.yield c).sliceTicks = 0 ∧
      (s.yield c).switches = s.switches + (if s.queue = [] then 0 else 1) ∧
      (s.yield c).idle = s.idle ∧ (s.yield c).sleepers = s.sleepers := by
  have hline := line_of_current hc
  have hnotIdle : s.idle ≠ some c := h.notIdle c (hline ▸ List.mem_cons_self)
  have hstopped : (s.bury.requeue c).queue = s.queue ++ [c] := if_neg hnotIdle
  rw [hline, List.rotate_cons_succ, List.rotate_zero]
  unfold yield runNext next
  rw [hstopped]
  cases hqueue : s.queue with
  | nil => exact ⟨rfl, rfl, rfl, if_pos rfl, rfl, rfl⟩
  | cons n rest =>
    -- the next thread is another one, since nobody stands in line twice
    have hne : c ≠ n := by
      have hnodup := h.nodup
      rw [hline, hqueue] at hnodup
      exact fun heq => (List.nodup_cons.mp hnodup).1 (heq ▸ List.mem_cons_self)
    exact ⟨rfl, rfl, rfl, if_neg hne, rfl, rfl⟩

/-- A tick that wakes nobody takes the processor away when it is the last one of a slice. -/
theorem preempts_eq (hlater : ∀ x ∈ s.sleepers, now < x.wakeTick) :
    s.preempts c now timeSlice = decide (timeSlice ≤ s.sliceTicks + 1) := by
  rw [preempts, due_eq_nil hlater]
  simp

/-- It charges the current thread, or rotates the line. -/
theorem Working.interrupt (h : Working s) (hc : s.current = some c)
    (hlater : ∀ x ∈ s.sleepers, now < x.wakeTick) (hslice : s.sliceTicks < timeSlice) :
    Turned timeSlice 1 s (s.interrupt c kind now timeSlice) := by
  unfold Scene.interrupt
  dsimp only
  rw [preempts_eq hlater, wake_of_later hlater]
  by_cases hlast : timeSlice ≤ s.sliceTicks + 1
  · -- the tick was the last one of the slice
    have hone : (s.sliceTicks + 1) / timeSlice = 1 ∧ (s.sliceTicks + 1) % timeSlice = 0 := by
      rw [show s.sliceTicks + 1 = timeSlice by omega]
      exact ⟨Nat.div_self (by omega), Nat.mod_self _⟩
    have hcharged : (s.charge kind).Working := ⟨h.runs, h.nodup, h.notIdle⟩
    obtain ⟨hline, hruns, hzero, hswitches, hidle, hsleepers⟩ := yield_of_working hcharged hc
    rw [if_pos (decide_eq_true hlast)]
    refine ⟨hruns.trans h.runs.symm, ?_, ?_, ?_, hidle, hsleepers⟩
    · rw [hone.1]
      exact hline
    · rw [hone.2]
      exact hzero
    · rw [hone.1]
      exact hswitches
  · have hless : s.sliceTicks + 1 < timeSlice := by omega
    rw [if_neg (by simpa using hlast)]
    refine ⟨rfl, ?_, ?_, ?_, rfl, rfl⟩
    · rw [Nat.div_eq_of_lt hless, List.rotate_zero]
      rfl
    · rw [Nat.mod_eq_of_lt hless]
      rfl
    · rw [Nat.div_eq_of_lt hless, ite_self]
      rfl

end Scene

/-- The tables show a working thread when the current one is not the idle thread. -/
theorem Tables.Sound.working {t : Tables β} (hsound : t.Sound) (hc : t.current = some c)
    (hidle : t.idle ≠ some c) : t.scene.Working := by
  have hline : t.scene.line = c :: t.ready.ids := Scene.line_of_current hc
  refine ⟨Option.isSome_iff_exists.mpr ⟨c, hc⟩, ?_, fun i hi => ?_⟩
  · rw [hline]
    exact List.nodup_cons.mpr ⟨hsound.current_not_mem (l := .ready) hc nofun, hsound.nodup .ready⟩
  · rw [hline, List.mem_cons] at hi
    rcases hi with rfl | hi
    · exact hidle
    · obtain ⟨th, hth, hlink⟩ := (hsound.mem_iff_link (l := .ready) nofun).mp hi
      exact ((hsound.status_of_link hth).1 hlink).2

end RoundRobin
