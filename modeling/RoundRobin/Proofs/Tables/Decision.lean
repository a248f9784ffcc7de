import RoundRobin.Proofs.Registry
import RoundRobin.Proofs.Tables.Sound

/-!
# Decisions keep the tables sound

A thread leaves in three phases: it is marked for where it will wait (`Marked`), it stops and the
dead before it are freed (`Stopped`), and the next thread is installed. Each phase has one lemma;
`Sound.leave` puts them together.
-/

namespace RoundRobin.Tables

variable {β : Type} {t t' u : Tables β} {id c n : ThreadId} {th : Thread β}

/-! ## Marks -/

theorem Filed.requeued (h : Filed t) (hc : t.linkOf c = some .unlinked) :
    Filed (t.requeued c) := by
  refine h.file (f := fun th => { th with link := .ready }) (l := .ready)
    rfl (fun _ => rfl) (fun _ => rfl) nofun hc (fun k => ?_)
    (h.wakeTick_modify rfl (fun _ => rfl) (fun _ => rfl) fun _ hs => hs)
  cases k with
  | ready => exact List.perm_append_singleton c t.ready.ids
  | unlinked => exact .refl _
  | sleeping => exact .refl _
  | reclaim => exact .refl _

theorem Filed.asleep {w : Nat} (h : Filed t) (hc : t.linkOf c = some .unlinked) :
    Filed (t.asleep c w) := by
  refine h.file (f := fun th => { th with wakeTick := w, link := .sleeping }) (l := .sleeping)
    rfl (fun _ => rfl) (fun _ => rfl) nofun hc (fun k => ?_) ?_
  · cases k with
    | sleeping => exact (SleepRegistry.perm_insert ⟨c, w⟩ t.sleepers.sleepers).map (·.thread)
    | unlinked => exact .refl _
    | ready => exact .refl _
    | reclaim => exact .refl _
  · intro s hs th hth
    obtain ⟨th₀, hth₀, rfl⟩ := ThreadTable.of_find?_modify hth fun _ => rfl
    rcases SleepRegistry.mem_insert.mp hs with rfl | hs
    · simp
    · -- the thread that falls asleep was not registered before
      have hne : s.thread ≠ c := by
        intro e
        have hmem := (h.mem_iff .sleeping nofun s.thread).mp (List.mem_map_of_mem hs)
        rw [e, hc] at hmem
        cases hmem
      rw [if_neg hne]
      exact h.wakeTick s hs th₀ hth₀

/-- Marking the current thread for a way to leave. -/
theorem Sound.marked {way : Way} (h : Sound t) (hu : t.mark way = .ok u) :
    ∃ c, t.current = some c ∧ Marked way.status c u := by
  obtain ⟨c, cth, hc, hcth, hrun⟩ := h.current_runs
  have hlink := h.linkOf_current hc
  have hunlinked : cth.link = .unlinked := by
    rw [linkOf_of_find? hcth, Option.some.injEq] at hlink
    exact hlink
  -- of the others a mark says what soundness said, since only the current one runs
  have hcid := ThreadTable.id_of_find? hcth
  have hothers : ∀ id th, t.threads.find? id = some th → id ≠ c →
      t.Placed none th ∧ th.status ≠ .running := by
    intro id th hth hne
    refine ⟨h.placed id th hth, fun hr => ?_⟩
    rw [h.running_iff hth, hc, Option.some.injEq] at hr
    exact hne hr.symm
  refine ⟨c, hc, ?_⟩
  cases way with
  | block =>
    cases hu
    refine ⟨h.toFiled, hc, fun th hth => ?_, hothers⟩
    rw [hcth, Option.some.injEq] at hth
    exact .inl (hth ▸ hunlinked)
  | exit =>
    cases hu
    refine ⟨h.toFiled, hc, fun th hth => ?_, hothers⟩
    rw [hcth, Option.some.injEq] at hth
    subst hth
    simp [Placed, Way.status, hunlinked, hcid]
  | yield =>
    obtain ⟨c', hc', hcase⟩ := requeueCurrent_eq_ok_iff.mp hu
    rw [hc, Option.some.injEq] at hc'
    subst hc'
    rcases hcase with ⟨hidle, rfl⟩ | ⟨hidle, _, _, rfl⟩
    · refine ⟨h.toFiled, hc, fun th hth => ?_, hothers⟩
      rw [hcth, Option.some.injEq] at hth
      subst hth
      simp [Placed, Way.status, hunlinked, hidle, hcid]
    · refine ⟨h.toFiled.requeued hlink, hc, fun th hth => ?_, fun id th hth hne => ?_⟩
      · obtain ⟨th₀, _, rfl⟩ := ThreadTable.of_find?_modify hth fun _ => rfl
        have hid := ThreadTable.id_of_find? hth
        simp only [↓reduceIte] at hid ⊢
        simp [Placed, Way.status, Tables.requeued, modifyThread, hid, hidle]
      · obtain ⟨th₀, hth₀, rfl⟩ := ThreadTable.of_find?_modify hth fun _ => rfl
        rw [if_neg hne]
        exact hothers id th₀ hth₀ hne
  | sleep w =>
    obtain ⟨c', hc', hidle, _, _, rfl⟩ := fallAsleep_eq_ok_iff.mp hu
    rw [hc, Option.some.injEq] at hc'
    subst hc'
    refine ⟨h.toFiled.asleep hlink, hc, fun th hth => ?_, fun id th hth hne => ?_⟩
    · obtain ⟨th₀, _, rfl⟩ := ThreadTable.of_find?_modify hth fun _ => rfl
      have hid := ThreadTable.id_of_find? hth
      simp only [↓reduceIte] at hid ⊢
      exact .inr ⟨rfl, by rw [hid]; exact hidle⟩
    · obtain ⟨th₀, hth₀, rfl⟩ := ThreadTable.of_find?_modify hth fun _ => rfl
      rw [if_neg hne]
      exact hothers id th₀ hth₀ hne

/-! ## Decisions -/

/-- Removing all that wait to be reclaimed. -/
theorem Filed.reaped (h : Filed t) (hreap : t.reap = .ok u) : Filed u ∧ u.reclaim = [] := by
  have hr := reaped_of_reap hreap
  have hlinks : ∀ i, u.linkOf i = if i ∈ t.reclaim then none else t.linkOf i := by
    intro i
    unfold linkOf
    rw [hr.find?]
    split <;> rfl
  have hreclaim : u.reclaim = [] := by rw [hr.rest]
  refine ⟨⟨hr.distinct h.distinct, fun l => ?_, fun l hl i => ?_, fun s hs th hth => ?_⟩, hreclaim⟩
  · have hnodup := h.nodup l
    rw [hr.rest]
    cases l with
    | reclaim => exact List.nodup_nil
    | unlinked => exact List.nodup_nil
    | ready => exact hnodup
    | sleeping => exact hnodup
  · -- the table loses exactly those whose link names the emptied container
    have hgone : i ∈ t.reclaim ↔ t.linkOf i = some .reclaim := h.mem_iff .reclaim nofun i
    have hmem := h.mem_iff l hl i
    rw [hlinks]
    by_cases hi : i ∈ t.reclaim
    · -- a thread that waits to be reclaimed is in no other container
      rw [if_pos hi]
      rw [hgone.mp hi] at hmem
      rw [hr.rest]
      cases l with
      | reclaim => simp [members]
      | unlinked => exact absurd rfl hl
      | ready => simpa [members] using hmem
      | sleeping => simpa [members] using hmem
    · rw [if_neg hi, hr.rest]
      cases l with
      | reclaim => simpa [members, hgone] using hi
      | unlinked => exact absurd rfl hl
      | ready => exact hmem
      | sleeping => exact hmem
  · rw [hr.rest] at hs
    rw [hr.find?] at hth
    split at hth
    · cases hth
    · exact h.wakeTick s hs th hth

/-- The current thread stops in its new status. -/
theorem Marked.stopped {status : Status} (h : Marked status c t) (hstatus : status ≠ .running)
    (hreap : t.reap = .ok u) : Stopped c (u.modifyThread c fun th => { th with status }) := by
  have hr := reaped_of_reap hreap
  obtain ⟨hfiled, hreclaim⟩ := h.toFiled.reaped hreap
  have hfields : u.current = t.current ∧ u.idle = t.idle ∧ u.boot = t.boot := by
    rw [hr.rest]; exact ⟨rfl, rfl, rfl⟩
  have hfind : ∀ {i : ThreadId} {th : Thread β}, u.threads.find? i = some th →
      i ∉ t.reclaim ∧ t.threads.find? i = some th := by
    intro i th hth
    rw [hr.find?] at hth
    split at hth
    · cases hth
    · exact ⟨‹_›, hth⟩
  refine ⟨hfiled.keep (f := fun th => { th with status }) rfl (fun _ => rfl) (fun _ => rfl)
    (fun _ => rfl) (fun _ => rfl) rfl, hfields.1.trans h.current, hreclaim, fun i th hth => ?_⟩
  have hid := ThreadTable.id_of_find? hth
  obtain ⟨th₀, hth₀, rfl⟩ := ThreadTable.of_find?_modify hth fun _ => rfl
  obtain ⟨hnot, hold⟩ := hfind hth₀
  by_cases hi : i = c
  · subst hi
    have hout := h.outgoing th₀ hold
    rw [if_pos rfl]
    refine ⟨?_, hstatus⟩
    simpa only [Placed, modifyThread, hfields] using hout
  · rw [if_neg hi] at hid ⊢
    obtain ⟨hplaced, hrun⟩ := h.others i th₀ hold hi
    refine ⟨?_, hrun⟩
    have hlink : th₀.link ≠ .reclaim := by
      intro hl
      exact hnot ((h.mem_iff .reclaim (by decide) i).mpr (hl ▸ linkOf_of_find? hold))
    simp only [Placed, modifyThread, hfields] at hplaced ⊢
    cases hst : th₀.status with
    | running => exact absurd hst hrun
    | ready => simpa only [hst] using hplaced
    | blocked => simpa only [hst] using hplaced
    | dying =>
      -- of the dead only the thread that booted is still there
      simp only [hst] at hplaced ⊢
      by_cases hboot : t.boot = some th₀.id
      · simpa [hboot] using hplaced
      · simp only [hboot, reduceCtorEq, or_self, ↓reduceIte] at hplaced
        exact absurd hplaced hlink

/-- The thread that comes next is at the head of the queue, or it is the idle thread and unlinked. -/
theorem Stopped.link_next (h : Stopped c t) (hn : t.upNext = some n)
    (hth : t.threads.find? n = some th) :
    (∃ rest, t.ready.ids = n :: rest) ∨ t.ready.ids = [] ∧ th.link = .unlinked := by
  rcases head_or_idle hn with hhead | ⟨hids, hn⟩
  · exact .inl hhead
  · have hid := ThreadTable.id_of_find? hth
    obtain ⟨hplaced, hrun⟩ := h.placed n th hth
    refine .inr ⟨hids, ?_⟩
    -- the reclaim list is empty, so the idle thread is not on it
    have hlink : th.link ≠ .reclaim := by
      intro hl
      have hmem := (h.mem_iff .reclaim nofun n).mpr (hl ▸ linkOf_of_find? hth)
      rw [members, h.nobody_waits] at hmem
      cases hmem
    unfold Placed at hplaced
    cases hst : th.status with
    | running => exact absurd hst hrun
    | ready => simpa [hst, hid, hn] using hplaced
    | blocked => simpa [hst, hid, hn] using hplaced
    | dying =>
      simp only [hst] at hplaced
      split at hplaced
      · exact hplaced
      · exact absurd hplaced hlink

/-- Installing the next thread takes it out of the queue. -/
theorem Stopped.filed_install (h : Stopped c t) (hn : t.upNext = some n)
    (hth : t.threads.find? n = some th) : Filed (t.popped.install n) := by
  have hlink := linkOf_of_find? hth
  rcases h.link_next hn hth with ⟨rest, hids⟩ | ⟨hids, hunlinked⟩
  · have hready : t.linkOf n = some .ready := by
      rw [← h.mem_iff .ready nofun n, members, hids]
      exact List.mem_cons_self
    refine h.toFiled.unfile (f := fun th => { th with status := .running, link := .unlinked })
      rfl (fun _ => rfl) (fun _ => rfl) (fun _ => rfl) hready (fun k _ => ?_) fun _ hs => hs
    cases k with
    | ready =>
      show t.ready.ids.Perm (n :: t.ready.ids.tail)
      rw [hids, List.tail_cons]
    | unlinked => exact .refl _
    | sleeping => exact .refl _
    | reclaim => exact .refl _
  · rw [hunlinked] at hlink
    refine h.toFiled.unfile (f := fun th => { th with status := .running, link := .unlinked })
      rfl (fun _ => rfl) (fun _ => rfl) (fun _ => rfl) hlink (fun k hk => ?_) fun _ hs => hs
    rw [if_neg hk]
    cases k with
    | ready =>
      show t.ready.ids.Perm t.ready.ids.tail
      rw [hids, List.tail_nil]
    | unlinked => exact .refl _
    | sleeping => exact .refl _
    | reclaim => exact .refl _

/-- With the next thread installed, every thread is placed, the exiting one as such. -/
theorem Stopped.placed_install (h : Stopped c t)
    (hth : (t.popped.install n).threads.find? id = some th) :
    (t.popped.install n).Placed (some c) th ∧ (th.status = .running ↔ id = n) := by
  have hid := ThreadTable.id_of_find? hth
  obtain ⟨th₀, hth₀, rfl⟩ := ThreadTable.of_find?_modify hth fun _ => rfl
  by_cases hi : id = n
  · subst hi
    simp only [↓reduceIte] at hid ⊢
    exact ⟨⟨congrArg some hid.symm, rfl⟩, by simp⟩
  · rw [if_neg hi]
    obtain ⟨hplaced, hrun⟩ := h.placed id th₀ hth₀
    exact ⟨hplaced.congr rfl rfl fun hst => absurd hst hrun, iff_of_false hrun hi⟩

/-- Once the thread that stopped is put aside where it died, the tables are sound again. -/
theorem sound_retired {out : Thread β} (hfiled : Filed t)
    (hplaced : ∀ id th, t.threads.find? id = some th → t.Placed (some c) th)
    (hcurrent : t.current = some n) (hnext : t.threads.find? n = some th)
    (hrun : th.status = .running) (hcn : c ≠ n) (hout : t.threads.find? c = some out) :
    Sound (t.retired c) := by
  have hcid := ThreadTable.id_of_find? hout
  have hstands := hplaced c out hout
  -- the exception for the thread that exits concerns `c` alone
  have hothers : ∀ id th, t.threads.find? id = some th → id ≠ c → t.Placed none th := by
    intro id th hth hne
    have hid := ThreadTable.id_of_find? hth
    exact (Placed.exiting_iff (by rw [hid]; exact fun e => hne e.symm)).mp (hplaced id th hth)
  unfold retired
  split
  · next hdies =>
    -- it died and did not boot: its link is the one that changes
    obtain ⟨hdying, hboot⟩ := hdies
    have hst : out.status = .dying := by simpa [statusOf, hout] using hdying
    have hunlinked : out.link = .unlinked := by
      simpa [Placed, hst, hcid] using hstands
    refine ⟨hfiled.file (f := fun th => { th with link := .reclaim }) (l := .reclaim)
      rfl (fun _ => rfl) (fun _ => rfl) (by decide) (by rw [linkOf_of_find? hout, hunlinked])
      (fun k => by cases k <;> exact .refl _)
      (hfiled.wakeTick_modify rfl (fun _ => rfl) (fun _ => rfl) fun _ hs => hs),
      fun i u hu => ?_, n, th, hcurrent, ?_, hrun⟩
    · obtain ⟨u₀, hu₀, rfl⟩ := ThreadTable.of_find?_modify hu fun _ => rfl
      by_cases hi : i = c
      · subst hi
        rw [hout, Option.some.injEq] at hu₀
        subst hu₀
        rw [if_pos rfl]
        simp [Placed, hst, hcid, modifyThread, hboot]
      · rw [if_neg hi]
        exact (hothers i u₀ hu₀ hi).congr rfl rfl fun _ => rfl
    · exact Eq.trans (ThreadTable.find?_modify_ne (Ne.symm hcn) fun _ => rfl) hnext
  · next hstays =>
    refine ⟨hfiled, fun i u hu => ?_, n, th, hcurrent, hnext, hrun⟩
    by_cases hi : i = c
    · subst hi
      rw [hout, Option.some.injEq] at hu
      subst hu
      by_cases hst : out.status = .dying
      · -- the thread that booted stays in the table
        have hboot : t.boot = some i := by
          by_cases hb : t.boot = some i
          · exact hb
          · exact absurd ⟨by simp [statusOf, hout, hst], hb⟩ hstays
        simpa [Placed, hst, hcid, hboot] using hstands
      · exact (Placed.alive_iff hst).mp hstands
    · exact hothers i u hu hi

/-- A decision that comes back leaves sound tables. -/
theorem Stopped.dispatched {d : Dispatch} (h : Stopped c t) (hd : t.dispatch = .ok (d, t')) :
    Sound t' := by
  obtain ⟨hc, hn, ⟨out, hout, _⟩, ⟨inc, hinc, _⟩, _, rfl⟩ := dispatch_eq_ok_iff.mp hd
  obtain ⟨c', n⟩ := d
  simp only at hc hn hout hinc ⊢
  rw [h.current, Option.some.injEq] at hc
  subst hc
  have hfiled := h.filed_install hn hinc
  have hnext : (t.popped.install n).threads.find? n
      = some { inc with status := .running, link := .unlinked } := by
    rw [find?_install, find?_popped, hinc]
    simp
  unfold handedOver
  by_cases hcn : c = n
  · -- the thread that gave up the processor gets it back
    rw [if_pos hcn]
    refine ⟨hfiled, fun i th hth => ?_, n, _, rfl, hnext, rfl⟩
    have hid := ThreadTable.id_of_find? hth
    obtain ⟨hplaced, hrun⟩ := h.placed_install hth
    by_cases hi : i = n
    · exact (Placed.alive_iff (by rw [hrun.mpr hi]; exact nofun)).mp hplaced
    · exact (Placed.exiting_iff (by rw [hid, hcn]; exact fun e => hi e.symm)).mp hplaced
  · rw [if_neg hcn]
    have hleft : (t.popped.install n).threads.find? c = some out := by
      rw [find?_install, find?_popped, hout]
      simp [hcn]
    have hsound := sound_retired hfiled (fun _ _ hth => (h.placed_install hth).1) rfl hnext rfl
      hcn hleft
    exact hsound.congr rfl rfl rfl rfl rfl rfl rfl

/-- However the current thread leaves, the tables stay sound. -/
theorem Sound.leave {way : Way} {d : Dispatch} (h : Sound t) (hl : t.leave way = .ok (d, t')) :
    Sound t' := by
  obtain ⟨u, hu, hg⟩ := leave_eq_ok_iff.mp hl
  obtain ⟨c, hc, hmarked⟩ := h.marked hu
  obtain ⟨c', th, v, hc', hth, hrun, hreap, hd⟩ := giveUp_eq_ok_iff.mp hg
  rw [hmarked.current, Option.some.injEq] at hc'
  subst hc'
  refine (hmarked.stopped ?_ hreap).dispatched hd
  cases way <;> exact nofun

end RoundRobin.Tables
