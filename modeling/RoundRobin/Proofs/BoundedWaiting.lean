import RoundRobin.Proofs.Kernel.Coherent
import RoundRobin.Proofs.Kernel.Slice

/-!
# Nobody waits for ever

The ready queue is first in, first out whatever is called: threads join it at the tail, and every
decision takes its head. So a thread with `i` others ahead of it comes to run at the decision `i + 1`
from then, and nobody overtakes it. When the timer is delivered in whole interrupts, decisions are no
further apart than a slice, which bounds the wait in interrupts.
-/

namespace RoundRobin

variable {C : Client} {hooks : Hooks C}

/-! ## First in, first out -/

/-- Of the threads `ahead`, which once stood at the head of the queue, those that were not given the
processor yet stand there still, and the others were given it in order. -/
structure Served (ahead : List ThreadId) (made : List Dispatch) (queue : List ThreadId) : Prop where
  waiting : ahead.drop made.length <+: queue
  order : (made.map (·.next)).take ahead.length = ahead.take made.length

namespace Served

variable {ahead queue more : List ThreadId} {made : List Dispatch} {d : Dispatch}
  {idle : Option ThreadId}

/-- Others may join the queue. -/
theorem join (h : Served ahead made queue) (more : List ThreadId) :
    Served ahead made (queue ++ more) :=
  ⟨h.waiting.trans (List.prefix_append _ _), h.order⟩

/-- The next decision serves the next of those that wait. -/
theorem serve (h : Served ahead made queue) (hd : queue.head?.or idle = some d.next) :
    Served ahead (made ++ [d]) queue.tail := by
  obtain ⟨rest, hrest⟩ := h.waiting
  by_cases hleft : made.length < ahead.length
  · -- somebody of those ahead still waits, and stands at the head
    rw [List.drop_eq_getElem_cons hleft] at hrest
    rw [← hrest, List.cons_append, List.head?_cons, Option.some_or, Option.some.injEq] at hd
    constructor
    · rw [← hrest, List.cons_append, List.tail_cons, List.length_append, List.length_singleton]
      exact List.prefix_append _ _
    · have horder := h.order
      rw [List.take_of_length_le (by simpa using Nat.le_of_lt hleft)] at horder
      rw [List.map_append, List.length_append, List.take_of_length_le (by simp; omega), horder,
        List.length_singleton, List.take_succ_eq_append_getElem hleft, hd]
      rfl
  · constructor
    · rw [List.length_append, List.drop_of_length_le (by omega)]
      exact List.nil_prefix
    · have horder := h.order
      rw [List.map_append, List.take_append_of_le_length (by simpa using Nat.le_of_not_lt hleft),
        horder, List.take_of_length_le (by omega), List.take_of_length_le (by simp; omega)]

end Served

namespace Core

/-- What holds from a moment on at which `ahead` stood at the head of the queue, and the decisions
`earlier` had been made. -/
structure Since (ahead : List ThreadId) (earlier : List Dispatch) (s : Core C) : Prop where
  up : s.initialized = true
  served : ∃ made, s.decisions = made.reverse ++ earlier ∧ Served ahead made s.tables.ready.ids ∧
    ∀ d, made.getLast? = some d → s.tables.current = some d.next

variable {ahead : List ThreadId} {earlier : List Dispatch} {s s' : Core C}

/-- Others may join the queue. -/
theorem Since.join {more : List ThreadId} (h : Since ahead earlier s)
    (hup : s'.initialized = s.initialized) (hdecisions : s'.decisions = s.decisions)
    (hqueue : s'.tables.ready.ids = s.tables.ready.ids ++ more)
    (hcurrent : s'.tables.current = s.tables.current) : Since ahead earlier s' := by
  obtain ⟨made, hmade, hserved, hlast⟩ := h.served
  refine ⟨hup.trans h.up, made, hdecisions.trans hmade, ?_, ?_⟩
  · rw [hqueue]; exact hserved.join more
  · rw [hcurrent]; exact hlast

/-- A decision serves the next one. -/
theorem Since.left {way : Way} {d : Dispatch} {t : Tables C.Body} (h : Since ahead earlier s)
    (ht : s.tables.leave way = .ok (d, t)) : Since ahead earlier (s.left d t) := by
  obtain ⟨made, hmade, hserved, hlast⟩ := h.served
  obtain ⟨more, _, hnext, hqueue⟩ := Tables.queue_of_leave ht
  refine ⟨h.up, made ++ [d], ?_, ?_, ?_⟩
  · show d :: s.decisions = _
    rw [hmade, List.reverse_append]
    rfl
  · show Served ahead (made ++ [d]) t.ready.ids
    rw [hqueue]
    exact (hserved.join more).serve hnext
  · intro d' hd'
    rw [List.getLast?_append, List.getLast?_singleton, Option.some_or, Option.some.injEq] at hd'
    rw [← hd']
    exact (Tables.parting_of_leave ht).current

/-- Every step keeps the order of the queue. -/
theorem kept_since : Kept (Since (C := C) ahead earlier) where
  later h _ := h.join rfl rfl (List.append_nil _).symm rfl
  adopted h hfresh := absurd (h.up.symm.trans hfresh) nofun
  hired h _ _ := h.join rfl rfl (List.append_nil _).symm rfl
  appointed h _ _ _ := h.join rfl rfl (List.append_nil _).symm rfl
  unblocked h ht := by
    obtain ⟨more, hmore⟩ := Tables.queue_of_unblock ht
    exact h.join rfl rfl hmore (by rw [Tables.rest_of_unblock ht])
  left h _ ht := h.left ht
  prioritized h _ := h.join rfl rfl (List.append_nil _).symm rfl
  ticked h _ _ ht := by
    obtain ⟨more, hmore⟩ := Tables.queue_of_tick ht
    exact h.join rfl rfl hmore (by rw [Tables.rest_of_tick ht]; rfl)
  preempted h ht := by
    have hleft := h.left ht
    exact ⟨hleft.up, hleft.served⟩

end Core

/-! ## What it means for one thread -/

/-- What became of a thread that stood at place `i` of the queue of `k`, after the decisions `made`
led to `k'`. -/
structure Turn (t : ThreadId) (i : Nat) (made : List Dispatch) (k k' : Kernel C) : Prop where
  since : k'.decisions = made.reverse ++ k.decisions
  /-- Until its turn the thread moves forward by one place for each decision. -/
  place : made.length ≤ i → k'.tables.ready.ids[i - made.length]? = some t
  /-- Those ahead of it are those that were ahead of it, less the ones that had their turn. -/
  ahead : made.length ≤ i →
    k'.tables.ready.ids.take (i - made.length) = (k.tables.ready.ids.take i).drop made.length
  /-- It is not its turn at any of the first `i` decisions, -/
  notYet : ∀ j d, made[j]? = some d → j < i → d.next ≠ t
  /-- and it is at the one after them. -/
  turn : ∀ d, made[i]? = some d → d.next = t
  current : made.length = i + 1 → k'.tables.current = some t

variable {k k' : Kernel C} {t : ThreadId} {i : Nat}

theorem Core.since_start (hup : k.initialized = true) (n : Nat) :
    Core.Since (k.tables.ready.ids.take n) k.decisions k.core :=
  ⟨hup, [], rfl, ⟨List.take_prefix _ _, by simp⟩, nofun⟩

theorem Core.Since.turn (h : Core.Since (k.tables.ready.ids.take (i + 1)) k.decisions k'.core)
    (ht : k.tables.ready.ids[i]? = some t) (hnodup : k.tables.ready.ids.Nodup) :
    ∃ made, Turn t i made k k' := by
  obtain ⟨made, hmade, ⟨⟨rest, hrest⟩, horder⟩, hlast⟩ := h.served
  have hlt : i < k.tables.ready.ids.length := (List.getElem?_eq_some_iff.mp ht).1
  have hlength : (k.tables.ready.ids.take (i + 1)).length = i + 1 := by simp; omega
  -- whom the first decisions served
  have hserved : ∀ j d, made[j]? = some d → j ≤ i → k.tables.ready.ids[j]? = some d.next := by
    intro j d hd hj
    have hjm : j < made.length := (List.getElem?_eq_some_iff.mp hd).1
    have hget := congrArg (fun l : List ThreadId => l[j]?) horder
    simp only [hlength] at hget
    rw [List.getElem?_take_of_lt (by omega), List.getElem?_map, hd, Option.map_some,
      List.getElem?_take_of_lt hjm, List.getElem?_take_of_lt (by omega)] at hget
    exact hget.symm
  have hturn : ∀ d, made[i]? = some d → d.next = t := by
    intro d hd
    have := hserved i d hd (Nat.le_refl i)
    rw [ht, Option.some.injEq] at this
    exact this.symm
  refine ⟨made, hmade, fun hle => ?_, fun hle => ?_, fun j d hd hj => ?_, hturn, fun hall => ?_⟩
  · show k'.core.tables.ready.ids[i - made.length]? = some t
    rw [← hrest, List.getElem?_append_left (by simp; omega), List.getElem?_drop,
      List.getElem?_take_of_lt (by omega), Nat.add_sub_cancel' hle, ht]
  · show k'.core.tables.ready.ids.take (i - made.length) = _
    rw [← hrest, List.take_append_of_le_length (by simp; omega), List.take_drop,
      Nat.add_sub_cancel' hle, List.take_take, Nat.min_eq_left (by omega)]
  · intro heq
    have hj' := hserved j d hd (Nat.le_of_lt hj)
    rw [heq, ← ht] at hj'
    have hsame : j = i := (List.getElem?_inj (by omega) hnodup).mp hj'
    omega
  · obtain ⟨d, hd⟩ : ∃ d, made[i]? = some d := ⟨_, List.getElem?_eq_getElem (by omega)⟩
    have hcurrent := hlast d (by rw [List.getLast?_eq_getElem?, hall]; exact hd)
    rw [hturn d hd] at hcurrent
    exact hcurrent

variable {config : Config} {client : C.State} {k₀ : Kernel C} {before after : List (Call C.Body)}

/-- Bounded waiting. A thread with `i` others ahead of it comes to run at the decision `i + 1` from
then, whatever is called, and nobody overtakes it. With whole interrupts this takes no more of them
than `i + 1` slices have ticks, less the part of the current slice that is over. -/
theorem bounded_waiting (hq : hooks.QueryOnly) (h₀ : Kernel.ofConfig config client = .ok k₀)
    (hbefore : Run hooks anyCall k₀ before k) (hafter : Run hooks anyCall k after k')
    (hspawns : k.spawns < Word.top) (ht : k.tables.ready.ids[i]? = some t) :
    ∃ made, Turn t i made k k' ∧
      (.timerInterrupt ∉ before ++ after →
        (i + 1) * k.config.timeSlice - k.tables.sliceTicks ≤ timerCalls after → i < made.length) := by
  have hcoherent := hbefore.coherent hq h₀
  have hup : k.initialized = true := by
    -- somebody is in the queue, so something was done
    refine hcoherent.up hspawns fun hblank => ?_
    have hempty : k.tables.ready.ids = [] := hblank.ready
    rw [hempty] at ht
    cases ht
  have hnodup := (hcoherent.recorded hspawns hup).sound.nodup .ready
  have hsince := hafter.keeps hq Core.kept_since (Core.since_start hup (i + 1))
  obtain ⟨made, hturn⟩ := hsince.turn ht hnodup
  refine ⟨made, hturn, fun hwhole hmany => ?_⟩
  rw [List.mem_append, not_or] at hwhole
  -- decisions are at most a slice apart
  have hpaced := (hbefore.paced hq hwhole.1 (Kernel.paced_of_ofConfig h₀)).1
  obtain ⟨hpaced', hpace⟩ := hafter.paced hq hwhole.2 hpaced
  have hticks := hpace hup
  have hconfig : k'.config = k.config := hafter.keeps hq (Core.kept_config k.config) rfl
  have hdecisions : k'.decisions.length = made.length + k.decisions.length := by
    rw [hturn.since, List.length_append, List.length_reverse]
  have hslice : k'.tables.sliceTicks < k'.config.timeSlice := hpaced'.slice
  simp only [Core.paceOf, Kernel.core, hdecisions, hconfig, Nat.add_mul] at hticks hslice hmany
  by_cases hserved : i < made.length
  · exact hserved
  · -- `i` decisions or fewer leave no room for so many interrupts
    have := Nat.mul_le_mul_right k.config.timeSlice (Nat.le_of_not_lt hserved)
    omega

/-- Two workers were made, and the second one waits behind the first: two slices of four ticks later
both had their turn. -/
theorem bounded_waiting_two_workers : ∃ k k' : Kernel plainClient,
    plainKernel.after .plain (fun _ _ => true)
      [.init, .start, .create "first" 31 (), .create "second" 31 (), .setLevel .off] = some k ∧
    k.after .plain (fun _ _ => true) (List.replicate 8 .onTimerInterrupt) = some k' ∧
    ∃ made, Turn ⟨4⟩ 1 made k k' ∧ 1 < made.length := by
  have hchecks : (plainKernel.after .plain (fun _ _ => true)
      [.init, .start, .create "first" 31 (), .create "second" 31 (), .setLevel .off]).any
        (fun k => decide (k.spawns < Word.top) && decide (k.tables.ready.ids[1]? = some ⟨4⟩) &&
          decide ((1 + 1) * k.config.timeSlice - k.tables.sliceTicks ≤ 8) &&
          (k.after .plain (fun _ _ => true) (List.replicate 8 .onTimerInterrupt)).isSome) = true := by
    decide +kernel
  obtain ⟨k, hk, hchecks⟩ := (Option.any_eq_true _ _).mp hchecks
  simp only [Bool.and_eq_true, decide_eq_true_eq] at hchecks
  obtain ⟨⟨⟨hspawns, ht⟩, hticks⟩, hsome⟩ := hchecks
  obtain ⟨k', hk'⟩ := Option.isSome_iff_exists.mp hsome
  obtain ⟨made, hturn, hlast⟩ := bounded_waiting Hooks.queryOnly_plain ofConfig_standard
    ((Run.of_after hk).mono fun _ _ _ => trivial) ((Run.of_after hk').mono fun _ _ _ => trivial)
    hspawns ht
  exact ⟨k, k', hk, hk', made, hturn, hlast (by simp) hticks⟩

end RoundRobin
