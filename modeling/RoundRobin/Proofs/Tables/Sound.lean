import RoundRobin.Proofs.Tables.Leave

/-!
# Sound tables

The invariant that ties the four containers of the scheduler to the two fields that a thread keeps
about itself. `Filed` says that each container holds exactly the threads whose link names it;
`Placed` says which link goes with which status. Tables are `Sound` when both hold and one thread
runs. In the middle of a decision nobody runs: then they are `Stopped`.
-/

namespace RoundRobin.Tables

variable {β : Type} {t t' u : Tables β} {id c n : ThreadId} {th : Thread β}

/-! ## The invariant -/

/-- The container that a live thread says it is in. -/
def linkOf (t : Tables β) (id : ThreadId) : Option Link := (t.threads.find? id).map (·.link)

/-- The ids that the container of a link holds. -/
def members (t : Tables β) : Link → List ThreadId
  | .unlinked => []
  | .ready => t.ready.ids
  | .sleeping => t.sleepers.sleepers.map (·.thread)
  | .reclaim => t.reclaim

/-- Each container holds every thread whose link names it, once, and no other id. -/
structure Filed (t : Tables β) : Prop where
  distinct : t.threads.Distinct
  nodup : ∀ l, (t.members l).Nodup
  mem_iff : ∀ l, l ≠ .unlinked → ∀ id, id ∈ t.members l ↔ t.linkOf id = some l
  wakeTick : ∀ s ∈ t.sleepers.sleepers, ∀ th, t.threads.find? s.thread = some th →
    th.wakeTick = s.wakeTick

/-- Where a thread of each status is to be found. The idle thread waits outside of the queue. The
thread that booted is never reclaimed, and neither is, yet, the one that is `exiting` right now. -/
def Placed (t : Tables β) (exiting : Option ThreadId) (th : Thread β) : Prop :=
  match th.status with
  | .running => t.current = some th.id ∧ th.link = .unlinked
  | .ready => th.link = if t.idle = some th.id then .unlinked else .ready
  | .blocked => th.link = .unlinked ∨ th.link = .sleeping ∧ t.idle ≠ some th.id
  | .dying => th.link = if t.boot = some th.id ∨ exiting = some th.id then .unlinked else .reclaim

/-- What holds of the tables whenever no critical section is open and no decision is under way. -/
structure Sound (t : Tables β) : Prop extends Filed t where
  placed : ∀ id th, t.threads.find? id = some th → t.Placed none th
  current_runs : ∃ id th, t.current = some id ∧ t.threads.find? id = some th ∧ th.status = .running

/-- What holds when the current thread has been marked for a way to leave, in a status to come. -/
structure Marked (status : Status) (c : ThreadId) (t : Tables β) : Prop extends Filed t where
  current : t.current = some c
  outgoing : ∀ th, t.threads.find? c = some th → t.Placed (some c) { th with status }
  others : ∀ id th, t.threads.find? id = some th → id ≠ c → t.Placed none th ∧ th.status ≠ .running

/-- What holds between the stop of the current thread and the start of the next one. -/
structure Stopped (c : ThreadId) (t : Tables β) : Prop extends Filed t where
  current : t.current = some c
  nobody_waits : t.reclaim = []
  placed : ∀ id th, t.threads.find? id = some th → t.Placed (some c) th ∧ th.status ≠ .running

theorem linkOf_of_find? (h : t.threads.find? id = some th) : t.linkOf id = some th.link := by
  simp [linkOf, h]

theorem linkOf_eq_some_iff {l : Link} :
    t.linkOf id = some l ↔ ∃ th, t.threads.find? id = some th ∧ th.link = l := by
  simp [linkOf]

/-! ### Where a thread stands -/

/-- Only the special threads bear on where a thread stands. -/
theorem Placed.congr {exiting : Option ThreadId} (h : t.Placed exiting th)
    (hidle : u.idle = t.idle) (hboot : u.boot = t.boot)
    (hcurrent : th.status = .running → u.current = t.current) : u.Placed exiting th := by
  unfold Placed at *
  cases hst : th.status with
  | running => simpa only [hst, hcurrent hst] using h
  | ready => simpa only [hst, hidle] using h
  | blocked => simpa only [hst, hidle] using h
  | dying => simpa only [hst, hboot] using h

/-- Whether some other thread exits does not matter. -/
theorem Placed.exiting_iff (hne : c ≠ th.id) : t.Placed (some c) th ↔ t.Placed none th := by
  have hsome : some c ≠ some th.id := fun e => hne (Option.some.inj e)
  unfold Placed
  cases th.status <;> simp [hsome]

/-- Nor does it matter for a thread that does not die. -/
theorem Placed.alive_iff {exiting : Option ThreadId} (h : th.status ≠ .dying) :
    t.Placed exiting th ↔ t.Placed none th := by
  unfold Placed
  cases hst : th.status with
  | dying => exact absurd hst h
  | running => exact .rfl
  | ready => exact .rfl
  | blocked => exact .rfl

/-- Only the current thread runs. -/
theorem Sound.running_iff (h : Sound t) (hth : t.threads.find? id = some th) :
    th.status = .running ↔ t.current = some id := by
  have hid := ThreadTable.id_of_find? hth
  constructor
  · intro hrun
    have hplaced := h.placed id th hth
    rw [Placed, hrun] at hplaced
    exact hid ▸ hplaced.1
  · intro hcur
    obtain ⟨c, cth, hc, hcth, hrun⟩ := h.current_runs
    rw [hcur, Option.some.injEq] at hc
    subst hc
    rw [hth, Option.some.injEq] at hcth
    rw [hcth, hrun]

theorem Sound.linkOf_current (h : Sound t) (hc : t.current = some c) :
    t.linkOf c = some .unlinked := by
  obtain ⟨c', th, hc', hth, hrun⟩ := h.current_runs
  rw [hc, Option.some.injEq] at hc'
  subst hc'
  have hplaced := h.placed c th hth
  rw [Placed, hrun] at hplaced
  rw [linkOf_of_find? hth, hplaced.2]

/-! ### Links and statuses -/

/-- The status that a link allows. -/
theorem Sound.status_of_link (h : Sound t) (hth : t.threads.find? id = some th) :
    (th.link = .ready → th.status = .ready ∧ t.idle ≠ some id) ∧
    (th.link = .sleeping → th.status = .blocked ∧ t.idle ≠ some id) ∧
    (th.link = .reclaim → th.status = .dying ∧ t.boot ≠ some id) := by
  have hid := ThreadTable.id_of_find? hth
  have hplaced := h.placed id th hth
  unfold Placed at hplaced
  rw [hid] at hplaced
  cases hst : th.status with
  | running => simp_all
  | ready => simp only [hst] at hplaced; split at hplaced <;> simp_all
  | blocked => simp only [hst] at hplaced; rcases hplaced with h | ⟨h, _⟩ <;> simp_all
  | dying => simp only [hst] at hplaced; split at hplaced <;> simp_all

/-- A thread that is ready is in the queue, the idle thread apart. -/
theorem Sound.link_of_ready (h : Sound t) (hth : t.threads.find? id = some th)
    (hst : th.status = .ready) (hidle : t.idle ≠ some id) : th.link = .ready := by
  have hplaced := h.placed id th hth
  have hid := ThreadTable.id_of_find? hth
  simpa [Placed, hst, hid, hidle] using hplaced

/-- A dead thread waits to be reclaimed, the one that booted apart. -/
theorem Sound.link_of_dying (h : Sound t) (hth : t.threads.find? id = some th)
    (hst : th.status = .dying) (hboot : t.boot ≠ some id) : th.link = .reclaim := by
  have hplaced := h.placed id th hth
  have hid := ThreadTable.id_of_find? hth
  simpa [Placed, hst, hid, hboot] using hplaced

theorem Sound.mem_iff_link (h : Sound t) {l : Link} (hl : l ≠ .unlinked) :
    id ∈ t.members l ↔ ∃ th, t.threads.find? id = some th ∧ th.link = l := by
  rw [h.mem_iff l hl, linkOf_eq_some_iff]

/-- The current thread is in no container. -/
theorem Sound.current_not_mem (h : Sound t) (hc : t.current = some c) {l : Link}
    (hl : l ≠ .unlinked) : c ∉ t.members l := by
  rw [h.mem_iff l hl, h.linkOf_current hc, Option.some.injEq]
  exact fun e => hl e.symm

/-- Who is not dead does not wait to be reclaimed. -/
theorem Sound.not_mem_reclaim (h : Sound t) (hth : t.threads.find? id = some th)
    (halive : th.status ≠ .dying) : id ∉ t.reclaim := by
  intro hin
  have hlink := (h.mem_iff .reclaim nofun id).mp hin
  rw [linkOf_of_find? hth, Option.some.injEq] at hlink
  exact halive ((h.status_of_link hth).2.2 hlink).1

/-- Who waits in the queue or sleeps is not dead. -/
theorem Sound.alive_of_mem (h : Sound t) {l : Link} (hl : l = .ready ∨ l = .sleeping)
    (hin : id ∈ t.members l) (hth : t.threads.find? id = some th) : th.status ≠ .dying := by
  intro hdying
  have hlink := (h.mem_iff l (by rcases hl with rfl | rfl <;> exact nofun) id).mp hin
  rw [linkOf_of_find? hth, Option.some.injEq] at hlink
  obtain ⟨hready, hsleeping, _⟩ := h.status_of_link hth
  rcases hl with rfl | rfl
  · rw [(hready hlink).1] at hdying
    cases hdying
  · rw [(hsleeping hlink).1] at hdying
    cases hdying

/-- The thread that booted never waits to be reclaimed. -/
theorem Sound.boot_not_mem_reclaim (h : Sound t) (hboot : t.boot = some id) : id ∉ t.reclaim := by
  intro hin
  obtain ⟨th, hth, hlink⟩ := (h.mem_iff_link (l := .reclaim) nofun).mp hin
  exact ((h.status_of_link hth).2.2 hlink).2 hboot

/-- Pages, slices, statistics and the count of switches do not matter to soundness. -/
theorem Sound.congr (h : Sound t) (hthreads : u.threads = t.threads) (hready : u.ready = t.ready)
    (hsleepers : u.sleepers.sleepers = t.sleepers.sleepers) (hreclaim : u.reclaim = t.reclaim)
    (hcurrent : u.current = t.current) (hidle : u.idle = t.idle) (hboot : u.boot = t.boot) :
    Sound u := by
  have hmembers : ∀ l, u.members l = t.members l := by
    intro l
    cases l <;> simp only [members, hready, hsleepers, hreclaim]
  have hlinks : ∀ i, u.linkOf i = t.linkOf i := fun i => by rw [linkOf, hthreads, linkOf]
  refine ⟨⟨by rw [hthreads]; exact h.distinct, fun l => ?_, fun l hl i => ?_, ?_⟩, ?_, ?_⟩
  · rw [hmembers]; exact h.nodup l
  · rw [hmembers, hlinks]; exact h.mem_iff l hl i
  · rw [hsleepers, hthreads]; exact h.wakeTick
  · rw [hthreads]
    exact fun i th hth => (h.placed i th hth).congr hidle hboot fun _ => hcurrent
  · rw [hthreads, hcurrent]; exact h.current_runs

/-! ## Moving a thread between containers -/

section Move

variable {f : Thread β → Thread β} {l : Link}

theorem linkOf_modify (hthreads : u.threads = t.threads.modify c f)
    (hid : ∀ th, (f th).id = th.id) (i : ThreadId) :
    u.linkOf i = (t.threads.find? i).map fun th => if i = c then (f th).link else th.link := by
  unfold linkOf
  rw [hthreads, ThreadTable.find?_modify _ _ _ _ hid, Option.map_map]
  congr 1
  funext th
  simp only [Function.comp_apply]
  split <;> rfl

theorem linkOf_relink (hthreads : u.threads = t.threads.modify c f)
    (hid : ∀ th, (f th).id = th.id) (hlink : ∀ th, (f th).link = l) (hc : t.linkOf c ≠ none)
    (i : ThreadId) : u.linkOf i = if i = c then some l else t.linkOf i := by
  rw [linkOf_modify hthreads hid]
  unfold linkOf at *
  split
  · next h =>
    subst h
    cases hfind : t.threads.find? i with
    | none => rw [hfind] at hc; exact absurd rfl hc
    | some th => simp [hlink]
  · rfl

/-- Wake ticks agree still when the changed thread keeps its own, and the registry grows by nothing. -/
theorem Filed.wakeTick_modify (h : Filed t) (hthreads : u.threads = t.threads.modify c f)
    (hid : ∀ th, (f th).id = th.id) (hwake : ∀ th, (f th).wakeTick = th.wakeTick)
    (hsub : ∀ s ∈ u.sleepers.sleepers, s ∈ t.sleepers.sleepers) :
    ∀ s ∈ u.sleepers.sleepers, ∀ th, u.threads.find? s.thread = some th →
      th.wakeTick = s.wakeTick := by
  intro s hs th hth
  rw [hthreads] at hth
  obtain ⟨th₀, hth₀, rfl⟩ := ThreadTable.of_find?_modify hth hid
  have hold := h.wakeTick s (hsub s hs) th₀ hth₀
  split
  · rw [hwake, hold]
  · exact hold

/-- A change that keeps the link keeps the tables filed. -/
theorem Filed.keep (h : Filed t) (hthreads : u.threads = t.threads.modify c f)
    (hid : ∀ th, (f th).id = th.id) (hlink : ∀ th, (f th).link = th.link)
    (hwake : ∀ th, (f th).wakeTick = th.wakeTick) (hmembers : ∀ l, u.members l = t.members l)
    (hsleepers : u.sleepers = t.sleepers) : Filed u := by
  have hsame : ∀ i, u.linkOf i = t.linkOf i := by
    intro i
    rw [linkOf_modify hthreads hid, linkOf]
    congr 1
    funext th
    split
    · exact hlink th
    · rfl
  refine ⟨?_, fun l => ?_, fun l hl i => ?_, ?_⟩
  · rw [hthreads]; exact h.distinct.modify hid
  · rw [hmembers]; exact h.nodup l
  · rw [hmembers, hsame]; exact h.mem_iff l hl i
  · exact h.wakeTick_modify hthreads hid hwake fun s hs => hsleepers ▸ hs

/-- A thread that is in no container enters one. -/
theorem Filed.file (h : Filed t) (hthreads : u.threads = t.threads.modify c f)
    (hid : ∀ th, (f th).id = th.id) (hlink : ∀ th, (f th).link = l) (hl : l ≠ .unlinked)
    (hc : t.linkOf c = some .unlinked)
    (hmembers : ∀ k, (u.members k).Perm (if k = l then c :: t.members k else t.members k))
    (hwake : ∀ s ∈ u.sleepers.sleepers, ∀ th, u.threads.find? s.thread = some th →
      th.wakeTick = s.wakeTick) : Filed u := by
  have hlinks := linkOf_relink hthreads hid hlink (by rw [hc]; exact nofun)
  -- the link says that `c` was in no container, so it enters `l` once
  have hout : c ∉ t.members l := by
    rw [h.mem_iff l hl, hc, Option.some.injEq]
    exact fun e => hl e.symm
  refine ⟨?_, fun k => ?_, fun k hk i => ?_, hwake⟩
  · rw [hthreads]; exact h.distinct.modify hid
  · rw [(hmembers k).nodup_iff]
    split
    · next hkl => subst hkl; exact List.nodup_cons.mpr ⟨hout, h.nodup k⟩
    · exact h.nodup k
  · rw [(hmembers k).mem_iff, hlinks]
    by_cases hi : i = c
    · subst hi
      -- before, it was in none of them
      have hk' : i ∉ t.members k := by
        rw [h.mem_iff k hk, hc, Option.some.injEq]
        exact fun e => hk e.symm
      by_cases hkl : k = l
      · simp [hkl]
      · simp only [if_neg hkl, hk', ↓reduceIte, Option.some.injEq, false_iff]
        exact fun e => hkl e.symm
    · rw [if_neg hi, ← h.mem_iff k hk]
      split <;> simp [hi]

/-- A thread leaves the container that it is in. -/
theorem Filed.unfile (h : Filed t) (hthreads : u.threads = t.threads.modify c f)
    (hid : ∀ th, (f th).id = th.id) (hlink : ∀ th, (f th).link = .unlinked)
    (hwake : ∀ th, (f th).wakeTick = th.wakeTick) (hl : t.linkOf c = some l)
    (hmembers : ∀ k, k ≠ .unlinked →
      (t.members k).Perm (if k = l then c :: u.members k else u.members k))
    (hsub : ∀ s ∈ u.sleepers.sleepers, s ∈ t.sleepers.sleepers) : Filed u := by
  have hlinks := linkOf_relink hthreads hid hlink (by rw [hl]; exact nofun)
  refine ⟨?_, fun k => ?_, fun k hk i => ?_, h.wakeTick_modify hthreads hid hwake hsub⟩
  · rw [hthreads]; exact h.distinct.modify hid
  · by_cases hk : k = .unlinked
    · subst hk; exact List.nodup_nil
    · have hnodup := (hmembers k hk).nodup_iff.mp (h.nodup k)
      split at hnodup
      · exact (List.nodup_cons.mp hnodup).2
      · exact hnodup
  · have hmem := h.mem_iff k hk i
    rw [(hmembers k hk).mem_iff] at hmem
    rw [hlinks]
    by_cases hi : i = c
    · subst hi
      -- it was there once, so with one occurrence taken off nothing is left of it
      have hgone : i ∉ u.members k := by
        intro hin
        split at hmem
        · next hkl =>
          have hnodup := (hmembers k hk).nodup_iff.mp (h.nodup k)
          rw [if_pos hkl] at hnodup
          exact (List.nodup_cons.mp hnodup).1 hin
        · next hkl =>
          rw [hl, Option.some.injEq] at hmem
          exact hkl (hmem.mp hin).symm
      simp only [hgone, ↓reduceIte, Option.some.injEq, false_iff]
      exact fun e => hk e.symm
    · rw [if_neg hi, ← hmem]
      split <;> simp [hi]

end Move

/-! ## Changes that keep the tables sound -/

/-- Tables stay sound when one thread that does not run moves to another place. -/
theorem Sound.move {f : Thread β → Thread β} (h : Sound t) (hfiled : Filed u)
    (hthreads : u.threads = t.threads.modify id f) (hid : ∀ th, (f th).id = th.id)
    (hcurrent : u.current = t.current) (hidle : u.idle = t.idle) (hboot : u.boot = t.boot)
    (hth : t.threads.find? id = some th) (hstop : th.status ≠ .running)
    (hplaced : u.Placed none (f th)) : Sound u := by
  refine ⟨hfiled, fun i u₁ hu₁ => ?_, ?_⟩
  · rw [hthreads] at hu₁
    obtain ⟨u₀, hu₀, rfl⟩ := ThreadTable.of_find?_modify hu₁ hid
    by_cases hi : i = id
    · subst hi
      rw [hth, Option.some.injEq] at hu₀
      rw [if_pos rfl, ← hu₀]
      exact hplaced
    · rw [if_neg hi]
      exact (h.placed i u₀ hu₀).congr hidle hboot fun _ => hcurrent
  · obtain ⟨c, cth, hc, hcth, hrun⟩ := h.current_runs
    -- the thread that moves does not run, so it is not the current one
    have hne : c ≠ id := by
      intro e
      rw [e, hth, Option.some.injEq] at hcth
      exact hstop (hcth ▸ hrun)
    refine ⟨c, cth, hcurrent.trans hc, ?_, hrun⟩
    rw [hthreads, ThreadTable.find?_modify_ne hne hid]
    exact hcth

/-- A priority does not matter. -/
theorem Sound.prioritized {priority : Nat} (h : Sound t) :
    Sound (t.modifyThread id fun th => { th with priority }) := by
  refine ⟨h.toFiled.keep (f := fun th => { th with priority }) rfl (fun _ => rfl) (fun _ => rfl)
    (fun _ => rfl) (fun _ => rfl) rfl, fun i th hth => ?_, ?_⟩
  · obtain ⟨th₀, hth₀, rfl⟩ := ThreadTable.of_find?_modify hth fun _ => rfl
    have hplaced := h.placed i th₀ hth₀
    split
    · exact hplaced
    · exact hplaced
  · obtain ⟨c, cth, hc, hcth, hrun⟩ := h.current_runs
    have hfind : (t.modifyThread id fun th => { th with priority }).threads.find? c
        = some (if c = id then { cth with priority } else cth) := by
      rw [find?_modifyThread (f := fun th => { th with priority }) (fun _ => rfl), hcth,
        Option.map_some]
    refine ⟨c, _, hc, hfind, ?_⟩
    split <;> exact hrun

/-- A new thread waits unlinked. -/
theorem Sound.inserted {pool : PagePool} (h : Sound t) (hfresh : t.threads.find? th.id = none)
    (hst : th.status = .blocked) (hlink : th.link = .unlinked) :
    Sound ({ t with pool }.insertThread th) := by
  have hfind : ∀ i, ({ t with pool }.insertThread th).threads.find? i
      = if i = th.id then some th else t.threads.find? i :=
    fun i => ThreadTable.find?_insert t.threads th i
  have hnone : t.linkOf th.id = none := by rw [linkOf, hfresh]; rfl
  have hlinks : ∀ i, ({ t with pool }.insertThread th).linkOf i
      = if i = th.id then some .unlinked else t.linkOf i := by
    intro i
    unfold linkOf
    rw [hfind]
    split
    · rw [Option.map_some, hlink]
    · rfl
  refine ⟨⟨h.distinct.insert th, fun l => ?_, fun l hl i => ?_, fun s hs u hu => ?_⟩, ?_, ?_⟩
  · have hnodup := h.nodup l
    cases l <;> exact hnodup
  · have hmem := h.mem_iff l hl i
    have hsame : ({ t with pool }.insertThread th).members l = t.members l := by cases l <;> rfl
    rw [hsame, hlinks]
    split
    · next hi =>
      rw [hi, hnone] at hmem
      simp only [reduceCtorEq, iff_false] at hmem
      simp only [hi, hmem, Option.some.injEq, false_iff]
      exact fun e => hl e.symm
    · exact hmem
  · rw [hfind] at hu
    split at hu
    · next hi =>
      -- nobody slept under the new id
      have hin := (h.mem_iff .sleeping nofun s.thread).mp (List.mem_map_of_mem hs)
      rw [hi, hnone] at hin
      cases hin
    · exact h.wakeTick s hs u hu
  · intro i u hu
    rw [hfind] at hu
    split at hu
    · cases hu
      simp [Placed, hst, hlink]
    · exact (h.placed i u hu).congr rfl rfl fun _ => rfl
  · obtain ⟨c, cth, hc, hcth, hrun⟩ := h.current_runs
    refine ⟨c, cth, hc, ?_, hrun⟩
    rw [hfind, if_neg]
    · exact hcth
    · intro e
      rw [e, hfresh] at hcth
      cases hcth

/-- A thread that waits unlinked may become the idle thread, if there was none. -/
theorem Sound.appointed (h : Sound t) (hnone : t.idle = none)
    (hth : t.threads.find? id = some th) (hst : th.status = .blocked)
    (hlink : th.link = .unlinked) : Sound { t with idle := some id } := by
  refine ⟨⟨h.distinct, fun l => ?_, fun l hl i => ?_, h.wakeTick⟩, fun i u hu => ?_, h.current_runs⟩
  · have hnodup := h.nodup l
    cases l <;> exact hnodup
  · have hmem := h.mem_iff l hl i
    cases l <;> exact hmem
  · have hplaced := h.placed i u hu
    have huid := ThreadTable.id_of_find? hu
    by_cases hi : i = id
    · rw [hi, hth, Option.some.injEq] at hu
      rw [← hu]
      simp [Placed, hst, hlink]
    · have hne : id ≠ u.id := by rw [huid]; exact fun e => hi e.symm
      unfold Placed at hplaced ⊢
      cases hu : u.status <;> simp_all

/-- The first thread of a kernel, in tables that hold nothing yet. -/
theorem sound_adopted (hthreads : t.threads = .empty) (hready : t.ready.ids = [])
    (hsleepers : t.sleepers.sleepers = []) (hreclaim : t.reclaim = [])
    (hst : th.status = .running) (hlink : th.link = .unlinked) :
    Sound { t.insertThread th with current := some th.id, boot := some th.id } := by
  have hfind : ∀ i, (t.insertThread th).threads.find? i = if i = th.id then some th else none := by
    intro i
    rw [insertThread, hthreads]
    exact ThreadTable.find?_insert .empty th i
  have hmembers : ∀ l, members { t.insertThread th with current := some th.id, boot := some th.id } l
      = [] := by
    intro l
    cases l with
    | ready => exact hready
    | sleeping =>
      show t.sleepers.sleepers.map (·.thread) = []
      rw [hsleepers, List.map_nil]
    | reclaim => exact hreclaim
    | unlinked => rfl
  refine ⟨⟨?_, fun l => ?_, fun l hl i => ?_, fun s hs => ?_⟩, fun i u hu => ?_, th.id, th, rfl,
    ?_, hst⟩
  · show (t.threads.insert th).Distinct
    rw [hthreads]
    exact ThreadTable.distinct_empty.insert th
  · rw [hmembers]; exact List.nodup_nil
  · rw [hmembers]
    simp only [List.not_mem_nil, linkOf, hfind, false_iff]
    split
    · simp only [Option.map_some, hlink, Option.some.injEq]
      exact fun e => hl e.symm
    · exact nofun
  · change s ∈ t.sleepers.sleepers at hs
    rw [hsleepers] at hs
    cases hs
  · rw [hfind] at hu
    split at hu
    · cases hu
      simp [Placed, hst, hlink]
    · cases hu
  · exact (hfind th.id).trans (if_pos rfl)

end RoundRobin.Tables
