import RoundRobin.Proofs.Tables.Tick

/-!
# What the scheduler does not look at

Names and priorities are kept and shown, and so is how many ticks went to user programs and how many to
other threads. Stripped tables are tables without them. A critical section does to the stripped tables
what it does to the tables themselves.
-/

namespace RoundRobin

variable {β : Type}

/-- A thread without its name and its priority. -/
def Thread.stripped (th : Thread β) : Thread β :=
  { th with name := .ofString "", priority := Priority.lowest }

def ThreadTable.stripped (table : ThreadTable β) : ThreadTable β :=
  ⟨table.threads.map Thread.stripped⟩

/-- Ticks of the idle thread, and ticks of all others. -/
def TickStats.stripped (s : TickStats) : TickStats :=
  { idle := s.idle, kernel := s.kernel + s.user }

def Tables.stripped (t : Tables β) : Tables β :=
  { t with threads := t.threads.stripped, stats := t.stats.stripped }

/-! ## Stripped threads -/

namespace ThreadTable

variable {table : ThreadTable β} {id : ThreadId}

theorem find?_stripped (table : ThreadTable β) (id : ThreadId) :
    table.stripped.find? id = (table.find? id).map Thread.stripped := by
  unfold find? stripped
  rw [List.find?_map]
  rfl

theorem stripped_erase (table : ThreadTable β) (id : ThreadId) :
    (table.erase id).stripped = table.stripped.erase id := by
  unfold erase stripped
  rw [List.filter_map]
  rfl

theorem stripped_insert (table : ThreadTable β) (th : Thread β) :
    (table.insert th).stripped = table.stripped.insert th.stripped := by
  have herase := congrArg threads (table.stripped_erase th.id)
  unfold insert
  rw [show table.stripped.erase th.stripped.id = table.stripped.erase th.id from rfl, ← herase]
  unfold stripped
  rw [List.map_append]
  rfl

theorem stripped_modify {f g : Thread β → Thread β} (h : ∀ th, (f th).stripped = g th.stripped) :
    (table.modify id f).stripped = table.stripped.modify id g := by
  unfold modify stripped
  simp only [List.map_map, mk.injEq]
  apply List.map_congr_left
  intro th _
  by_cases hid : th.id = id
  · simp [hid, h, show th.stripped.id = th.id from rfl]
  · simp [hid, show th.stripped.id = th.id from rfl]

end ThreadTable

namespace Tables

variable {t t' t₁ t₂ : Tables β} {id c n : ThreadId} {th : Thread β}

theorem find?_stripped (t : Tables β) (id : ThreadId) :
    t.stripped.threads.find? id = (t.threads.find? id).map Thread.stripped :=
  t.threads.find?_stripped id

theorem find?_stripped_of (h : t.threads.find? id = some th) :
    t.stripped.threads.find? id = some th.stripped := by
  rw [find?_stripped, h, Option.map_some]

@[simp] theorem statusOf_stripped (t : Tables β) (id : ThreadId) :
    t.stripped.statusOf id = t.statusOf id := by
  unfold statusOf
  rw [find?_stripped, Option.map_map]
  rfl

/-- A change of threads that does not look at what is stripped. -/
theorem stripped_modifyThread (f : Thread β → Thread β) (h : ∀ th, (f th).stripped = f th.stripped) :
    (t.modifyThread id f).stripped = t.stripped.modifyThread id f := by
  unfold stripped modifyThread
  rw [ThreadTable.stripped_modify h]

/-- A change of what is stripped anyway. -/
theorem stripped_modifyThread_self {f : Thread β → Thread β}
    (h : ∀ th, (f th).stripped = th.stripped) : (t.modifyThread id f).stripped = t.stripped := by
  have hsame : t.threads.stripped.modify id (fun th => th) = t.threads.stripped := by
    unfold ThreadTable.modify
    simp
  unfold stripped modifyThread
  rw [ThreadTable.stripped_modify (g := fun th => th) h, hsame]

theorem stripped_insertThread (t : Tables β) (th : Thread β) :
    (t.insertThread th).stripped = t.stripped.insertThread th.stripped := by
  unfold stripped insertThread
  rw [ThreadTable.stripped_insert]

theorem stripped_insertThread_congr {th₁ th₂ : Thread β} (ht : t₁.stripped = t₂.stripped)
    (hth : th₁.stripped = th₂.stripped) :
    (t₁.insertThread th₁).stripped = (t₂.insertThread th₂).stripped := by
  rw [stripped_insertThread, stripped_insertThread, ht, hth]

/-! ## Becoming ready -/

theorem stripped_readied (id : ThreadId) (t : Tables β) :
    (t.readied id).stripped = t.stripped.readied id := by
  unfold readied
  rw [show t.stripped.idle = t.idle from rfl]
  split
  · exact stripped_modifyThread _ fun _ => rfl
  · exact congrArg (fun u : Tables β => { u with ready := { t.ready with ids := t.ready.ids ++ [id] } })
      (stripped_modifyThread (fun th => { th with status := .ready, link := .ready }) fun _ => rfl)

theorem stripped_makeReady (h : t.makeReady id = .ok t') :
    t.stripped.makeReady id = .ok t'.stripped := by
  obtain ⟨⟨th, hth, hblocked⟩, hroom, rfl⟩ := makeReady_eq_ok_iff.mp h
  exact makeReady_eq_ok_iff.mpr
    ⟨⟨th.stripped, find?_stripped_of hth, hblocked⟩, hroom, stripped_readied id t⟩

theorem stripped_unblock (h : t.unblock id = .ok t') :
    t.stripped.unblock id = .ok t'.stripped := by
  obtain ⟨⟨th, hth, hkept⟩, hroom, rfl⟩ := unblock_eq_ok_iff.mp h
  exact unblock_eq_ok_iff.mpr
    ⟨⟨th.stripped, find?_stripped_of hth, hkept⟩, hroom, stripped_readied id t⟩

theorem stripped_makeAllReady {ids : List ThreadId} (h : makeAllReady ids t = .ok t') :
    makeAllReady ids t.stripped = .ok t'.stripped := by
  induction ids generalizing t with
  | nil => cases h; rfl
  | cons id rest ih =>
    obtain ⟨u, hu, h⟩ := Fault.bind_eq_ok_iff.mp h
    exact Fault.bind_eq_ok_iff.mpr ⟨u.stripped, stripped_makeReady hu, ih h⟩

theorem stripped_wakeDue {now count : Nat} (h : t.wakeDue now = .ok (count, t')) :
    t.stripped.wakeDue now = .ok (count, t'.stripped) := by
  rw [wakeDue_eq_ok_iff] at h ⊢
  rcases h with ⟨hdue, hcount, hm⟩ | ⟨hdue, hcount, rfl⟩
  · exact .inl ⟨hdue, hcount, stripped_makeAllReady hm⟩
  · exact .inr ⟨hdue, hcount, rfl⟩

/-! ## Waiting -/

theorem stripped_requeued (c : ThreadId) (t : Tables β) :
    (t.requeued c).stripped = t.stripped.requeued c :=
  congrArg (fun u : Tables β => { u with ready := { t.ready with ids := t.ready.ids ++ [c] } })
    (stripped_modifyThread (fun th => { th with link := .ready }) fun _ => rfl)

theorem stripped_asleep (c : ThreadId) (w : Nat) (t : Tables β) :
    (t.asleep c w).stripped = t.stripped.asleep c w :=
  congrArg (fun u : Tables β => { u with sleepers := (t.asleep c w).sleepers })
    (stripped_modifyThread (fun th => { th with wakeTick := w, link := .sleeping }) fun _ => rfl)

theorem stripped_requeueCurrent (h : t.requeueCurrent = .ok t') :
    t.stripped.requeueCurrent = .ok t'.stripped := by
  obtain ⟨c, hc, hcase⟩ := requeueCurrent_eq_ok_iff.mp h
  refine requeueCurrent_eq_ok_iff.mpr ⟨c, hc, ?_⟩
  rcases hcase with ⟨hidle, rfl⟩ | ⟨hidle, ⟨th, hth⟩, hroom, rfl⟩
  · exact .inl ⟨hidle, rfl⟩
  · exact .inr ⟨hidle, ⟨_, find?_stripped_of hth⟩, hroom, stripped_requeued c t⟩

theorem stripped_fallAsleep {w : Nat} (h : t.fallAsleep w = .ok t') :
    t.stripped.fallAsleep w = .ok t'.stripped := by
  obtain ⟨c, hc, hidle, ⟨th, hth⟩, hout, rfl⟩ := fallAsleep_eq_ok_iff.mp h
  exact fallAsleep_eq_ok_iff.mpr
    ⟨c, hc, hidle, ⟨_, find?_stripped_of hth⟩, hout, stripped_asleep c w t⟩

/-! ## Decisions -/

theorem stripped_reapOne (h : reapOne id t = .ok t') :
    reapOne id t.stripped = .ok t'.stripped := by
  rw [reapOne_eq_ok_iff] at h ⊢
  rcases h with ⟨hnone, rfl⟩ | ⟨th, hth, hdying, hsize, rfl⟩
  · exact .inl ⟨by rw [find?_stripped, hnone, Option.map_none], rfl⟩
  · refine .inr ⟨th.stripped, find?_stripped_of hth, hdying, hsize, ?_⟩
    unfold removed stripped
    rw [ThreadTable.stripped_erase]
    rfl

theorem stripped_reapAll {ids : List ThreadId} (h : reapAll ids t = .ok t') :
    reapAll ids t.stripped = .ok t'.stripped := by
  induction ids generalizing t with
  | nil => cases h; rfl
  | cons id rest ih =>
    obtain ⟨u, hu, h⟩ := Fault.bind_eq_ok_iff.mp h
    exact Fault.bind_eq_ok_iff.mpr ⟨u.stripped, stripped_reapOne hu, ih h⟩

theorem stripped_install (n : ThreadId) (t : Tables β) :
    (t.install n).stripped = t.stripped.install n :=
  congrArg (fun u : Tables β => { u with current := some n, sliceTicks := 0 })
    (stripped_modifyThread (fun th => { th with status := .running, link := .unlinked }) fun _ => rfl)

theorem stripped_retired (c : ThreadId) (t : Tables β) :
    (t.retired c).stripped = t.stripped.retired c := by
  unfold retired
  rw [statusOf_stripped, show t.stripped.boot = t.boot from rfl]
  split
  · exact congrArg (fun u : Tables β => { u with reclaim := c :: t.reclaim })
      (stripped_modifyThread (fun th => { th with link := .reclaim }) fun _ => rfl)
  · rfl

theorem stripped_handedOver (c n : ThreadId) (t : Tables β) :
    (t.handedOver c n).stripped = t.stripped.handedOver c n := by
  have hinstalled : (t.popped.install n).stripped = t.stripped.popped.install n :=
    stripped_install n t.popped
  unfold handedOver
  split
  · exact hinstalled
  · have hretired := stripped_retired c (t.popped.install n)
    rw [hinstalled] at hretired
    exact congrArg (fun u : Tables β => { u with switches := u.switches + 1 }) hretired

theorem stripped_dispatch {d : Dispatch} (h : t.dispatch = .ok (d, t')) :
    t.stripped.dispatch = .ok (d, t'.stripped) := by
  obtain ⟨hc, hn, ⟨out, hout, hstopped⟩, ⟨inc, hinc, hintact⟩, hroom, rfl⟩ := dispatch_eq_ok_iff.mp h
  exact dispatch_eq_ok_iff.mpr ⟨hc, hn, ⟨out.stripped, find?_stripped_of hout, hstopped⟩,
    ⟨inc.stripped, find?_stripped_of hinc, hintact⟩, hroom, stripped_handedOver _ _ t⟩

theorem stripped_giveUp {status : Status} {d : Dispatch} (h : t.giveUp status = .ok (d, t')) :
    t.stripped.giveUp status = .ok (d, t'.stripped) := by
  obtain ⟨c, th, u, hc, hth, hrunning, hreap, hd⟩ := giveUp_eq_ok_iff.mp h
  refine giveUp_eq_ok_iff.mpr
    ⟨c, th.stripped, u.stripped, hc, find?_stripped_of hth, hrunning, stripped_reapAll hreap, ?_⟩
  rw [← stripped_modifyThread (fun th => { th with status }) fun _ => rfl]
  exact stripped_dispatch hd

/-! ## Charging -/

end Tables

/-- A tick goes to the idle thread or to another one. -/
theorem TickStats.stripped_of_charge {s s' : TickStats} {kind : TickKind}
    (h : s.charge kind = .ok s') :
    s'.stripped = if kind = .idle then { s.stripped with idle := s.stripped.idle + 1 }
      else { s.stripped with kernel := s.stripped.kernel + 1 } := by
  unfold charge stripped at *
  cases kind with
  | idle =>
    obtain ⟨n, hn, h⟩ := Fault.bind_eq_ok_iff.mp h
    rw [Fault.pure_eq_ok_iff.mp h, (checkedAdd_eq_ok_iff.mp hn).2]
    rfl
  | kernel =>
    obtain ⟨n, hn, h⟩ := Fault.bind_eq_ok_iff.mp h
    rw [Fault.pure_eq_ok_iff.mp h, (checkedAdd_eq_ok_iff.mp hn).2]
    simp only [reduceCtorEq, ↓reduceIte, mk.injEq, and_true, true_and]
    omega
  | user =>
    obtain ⟨n, hn, h⟩ := Fault.bind_eq_ok_iff.mp h
    rw [Fault.pure_eq_ok_iff.mp h, (checkedAdd_eq_ok_iff.mp hn).2]
    simp only [reduceCtorEq, ↓reduceIte, mk.injEq, and_true, true_and]
    omega

namespace Tables

variable {t₁ t₂ t₁' t₂' : Tables β}

/-- Whether a tick is charged to the kernel or to a user program makes no other difference. -/
theorem stripped_charge {kind₁ kind₂ : TickKind} {timeSlice : Nat} {expired₁ expired₂ : Bool}
    (ht : t₁.stripped = t₂.stripped) (hkind : kind₁ = .idle ↔ kind₂ = .idle)
    (h₁ : t₁.charge kind₁ timeSlice = .ok (expired₁, t₁'))
    (h₂ : t₂.charge kind₂ timeSlice = .ok (expired₂, t₂')) :
    expired₁ = expired₂ ∧ t₁'.stripped = t₂'.stripped := by
  obtain ⟨stats₁, hs₁, _, rfl, rfl⟩ := charge_eq_ok_iff.mp h₁
  obtain ⟨stats₂, hs₂, _, rfl, rfl⟩ := charge_eq_ok_iff.mp h₂
  have hslice : t₁.stripped.sliceTicks = t₂.stripped.sliceTicks := by rw [ht]
  have hstats : stats₁.stripped = stats₂.stripped := by
    have hbefore : t₁.stripped.stats = t₂.stripped.stats := by rw [ht]
    rw [TickStats.stripped_of_charge hs₁, TickStats.stripped_of_charge hs₂,
      show t₁.stats.stripped = t₂.stats.stripped from hbefore]
    simp only [hkind]
  refine ⟨by rw [show t₁.sliceTicks = t₂.sliceTicks from hslice], ?_⟩
  have hcharged : ∀ (t : Tables β) (s : TickStats), (t.charged s).stripped
      = { t.stripped with stats := s.stripped, sliceTicks := t.stripped.sliceTicks + 1 } :=
    fun _ _ => rfl
  rw [hcharged, hcharged, ht, hstats]

end Tables
end RoundRobin
