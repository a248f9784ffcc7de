import RoundRobin.Proofs.Kernel.Course
import RoundRobin.Proofs.LevelDiscipline
import RoundRobin.Proofs.Reclamation

/-!
# Entries run once

A thread is created with code to run, its entry. A trampoline takes the entry out before it runs it, so
the entry begins once, with interrupts on, and only in a trampoline of the thread that is current. This
holds whatever the entry does, and whatever a process layer does that calls the kernel again.

When the entry comes back with its thread current again, the trampoline ends the thread.
-/

namespace RoundRobin

variable {C : Client} {hooks : Hooks C} {k k' k₀ k₁ k₂ : Kernel C} {t id : ThreadId}
  {e : Entry C.Body} {entry : Option (Entry C.Body)}

/-! ## Phases -/

/-- The levels at which a thread starts that begins what it has to run: the loop of the idle thread does
not count as a start. -/
def Entry.levels {β : Type} : Option (Entry β) → List Level
  | some (.body _) => [.on]
  | _ => []

/-- What may be known of a thread: what it has still to run, and the levels at which it started. -/
abbrev Phase (β : Type) := Option (Entry β) → List Level → Prop

namespace Phase

variable {β : Type}

/-- The phase lasts when the thread begins what it has to run. -/
def Lasts (phase : Phase β) : Prop :=
  ∀ entry starts, phase entry starts → phase none (Entry.levels entry ++ starts)

/-- The thread has its entry and has not started, or it has begun and has its entry no longer. -/
def engaged (e : Entry β) : Phase β := fun entry starts =>
  entry = some e ∧ starts = [] ∨ entry = none ∧ starts = Entry.levels (some e)

/-- The thread has nothing to run, and starts no more. -/
def spent (before : List Level) : Phase β := fun entry starts => entry = none ∧ starts = before

theorem lasts_engaged (e : Entry β) : (engaged e).Lasts := by
  rintro _ _ (⟨rfl, rfl⟩ | ⟨rfl, rfl⟩)
  · exact .inr ⟨rfl, List.append_nil _⟩
  · exact .inr ⟨rfl, rfl⟩

theorem lasts_spent (before : List Level) : (spent before : Phase β).Lasts := by
  rintro _ _ ⟨rfl, rfl⟩
  exact ⟨rfl, rfl⟩

/-- A thread starts once at most. -/
theorem starts_of_engaged {e : Entry β} {entry : Option (Entry β)} {starts : List Level}
    (h : engaged e entry starts) : starts = [] ∨ starts = [.on] := by
  obtain ⟨_, hnever⟩ | ⟨_, honce⟩ := h
  · exact .inl hnever
  · cases e with
    | idleLoop => exact .inl honce
    | body b => exact .inr honce

end Phase

/-! ## When an entry begins -/

namespace Kernel

theorem starts_begun (t id : ThreadId) (entry : Option (Entry C.Body)) (k : Kernel C) :
    (k.begun id entry).starts t
      = (entering id entry : List (Event C.Note)).filterMap (Event.startOf t) ++ k.starts t := by
  show List.filterMap _ (entering id entry ++ .updated .off :: k.history) = _
  rw [List.filterMap_append]
  rfl

/-- An entry that begins is noted for its own thread, -/
theorem starts_begun_self (t : ThreadId) (entry : Option (Entry C.Body)) (k : Kernel C) :
    (k.begun t entry).starts t = Entry.levels entry ++ k.starts t := by
  rw [starts_begun]
  match entry with
  | none => rfl
  | some .idleLoop => rfl
  | some (.body b) => simp [entering, Event.startOf, Entry.levels]

/-- and for no other. -/
theorem starts_begun_ne (h : id ≠ t) : (k.begun id entry).starts t = k.starts t := by
  rw [starts_begun]
  match entry with
  | none => rfl
  | some .idleLoop => rfl
  | some (.body b) => simp [entering, Event.startOf, h]

/-! ## Ids -/

/-- Ids are handed out in sequence, the first one to the thread that booted. Whoever is alive, or has
started, has one of them. -/
structure Enrolled (k : Kernel C) : Prop where
  nextId : k.nextId.val = if k.initialized then Word.saturate (k.spawns + 2) else 1
  blank : k.initialized = false → k.spawns = 0
  known : ∀ t, (∃ th, k.tables.threads.find? t = some th) ∨ k.starts t ≠ [] →
    k.initialized = true ∧ t.val ≤ k.spawns + 1

theorem Enrolled.kin (h : Enrolled k) (hkin : k.Kin k') : Enrolled k' := by
  refine ⟨?_, ?_, fun t ht => ?_⟩
  · rw [hkin.nextId, hkin.initialized, hkin.spawns]
    exact h.nextId
  · rw [hkin.initialized, hkin.spawns]
    exact h.blank
  · rw [hkin.initialized, hkin.spawns]
    refine h.known t (ht.imp (fun ⟨th', hth'⟩ => ?_) fun hstarted => hkin.starts t ▸ hstarted)
    obtain ⟨th, hth, _⟩ := hkin.survive t th' hth'
    exact ⟨th, hth⟩

theorem Enrolled.adopted (h : Enrolled k) (hfresh : k.initialized = false) : Enrolled k.adopted := by
  have hnext : k.nextId.val = 1 := by
    have hnext := h.nextId
    rw [hfresh] at hnext
    exact hnext
  have hnone : k.spawns = 0 := h.blank hfresh
  have hspawns : k.adopted.spawns = k.spawns := rfl
  refine ⟨?_, nofun, fun t ht => ⟨rfl, ?_⟩⟩
  · show Word.saturate (k.nextId.val + 1) = Word.saturate (k.adopted.spawns + 2)
    rw [hspawns, hnext, hnone]
  · rw [hspawns, hnone]
    rcases ht with ⟨th, hth⟩ | hstarted
    · replace hth := (ThreadTable.find?_insert _ _ _).symm.trans hth
      split at hth
      · next hid =>
        rw [hid]
        exact Nat.le_of_eq hnext
      · have hup := (h.known t (.inl ⟨th, hth⟩)).1
        rw [hfresh] at hup
        cases hup
    · have hup := (h.known t (.inr hstarted)).1
      rw [hfresh] at hup
      cases hup

/-- The id of a new thread is one more than the last one. -/
theorem Enrolled.nextId_eq (h : Enrolled k) (hup : k.initialized = true)
    (hroom : k.spawns + 1 < Word.top) : k.nextId.val = k.spawns + 2 := by
  have hnext := h.nextId
  rw [if_pos hup, Word.saturate_eq_self (by omega)] at hnext
  exact hnext

theorem Enrolled.hired {entry : Entry C.Body} (h : Enrolled k) (hroom : k.spawns + 1 < Word.top)
    (hhires : k.Hires entry k') : Enrolled k' := by
  have hnext := h.nextId_eq hhires.up hroom
  refine ⟨?_, fun hdown => ?_, fun t ht => ⟨hhires.initialized, ?_⟩⟩
  · rw [if_pos hhires.initialized, hhires.nextId, hhires.spawns]
    show Word.saturate (k.nextId.val + 1) = _
    rw [hnext]
  · rw [hhires.initialized] at hdown
    cases hdown
  · rw [hhires.spawns]
    rcases ht with ⟨th', hth'⟩ | hstarted
    · rcases hhires.of_find? hth' with ⟨rfl, _⟩ | ⟨th, hth, _⟩
      · exact Nat.le_of_eq hnext
      · have := (h.known t (.inl ⟨th, hth⟩)).2
        omega
    · have := (h.known t (.inr (hhires.starts t ▸ hstarted))).2
      omega

theorem Enrolled.begun {th : Thread C.Body} (h : Enrolled k)
    (hth : k.tables.threads.find? id = some th) : Enrolled (k.begun id entry) := by
  refine ⟨?_, fun hdown => ?_, fun t ht => ?_⟩
  · rw [spawns_begun]
    exact h.nextId
  · rw [spawns_begun]
    exact h.blank hdown
  · rw [spawns_begun]
    refine h.known t ?_
    rcases ht with ⟨th', hth'⟩ | hstarted
    · obtain ⟨th, hth, _⟩ := Tables.of_find?_begun hth'
      exact .inl ⟨th, hth⟩
    · by_cases hid : id = t
      · exact .inl ⟨th, hid ▸ hth⟩
      · rw [starts_begun_ne hid] at hstarted
        exact .inr hstarted

/-! ## The entry of a thread -/

/-- A thread that was made is in a phase. Once the thread is gone its id is not used again. -/
structure InPhase (t : ThreadId) (phase : Phase C.Body) (k : Kernel C) : Prop where
  up : k.initialized = true
  known : t.val ≤ k.spawns + 1
  phase : ∃ entry, phase entry (k.starts t) ∧
    ∀ th, k.tables.threads.find? t = some th → th.entry = entry

variable {phase : Phase C.Body}

theorem InPhase.kin (h : InPhase t phase k) (hkin : k.Kin k') : InPhase t phase k' := by
  obtain ⟨entry, hphase, hentry⟩ := h.phase
  refine ⟨hkin.initialized.trans h.up, ?_, entry, ?_, fun th' hth' => ?_⟩
  · rw [hkin.spawns]
    exact h.known
  · rw [hkin.starts]
    exact hphase
  · obtain ⟨th, hth, hsame⟩ := hkin.survive t th' hth'
    exact hsame.entry.trans (hentry th hth)

/-- A thread that is hired later has another id. -/
theorem InPhase.hired (h : InPhase t phase k) (henrolled : Enrolled k)
    (hroom : k.spawns + 1 < Word.top) (hhires : k.Hires e k') : InPhase t phase k' := by
  have hknown := h.known
  obtain ⟨entry, hphase, hentry⟩ := h.phase
  refine ⟨hhires.initialized, ?_, entry, ?_, fun th' hth' => ?_⟩
  · rw [hhires.spawns]
    omega
  · rw [hhires.starts]
    exact hphase
  · rcases hhires.of_find? hth' with ⟨rfl, _⟩ | ⟨th, hth, hsame⟩
    · have hnext := henrolled.nextId_eq hhires.up hroom
      omega
    · exact hsame.entry.trans (hentry th hth)

/-- What a thread has to run begins when that thread is current, and is gone then. -/
theorem InPhase.begun {th : Thread C.Body} (h : InPhase t phase k) (hlasts : phase.Lasts)
    (hth : k.tables.threads.find? id = some th) : InPhase t phase (k.begun id th.entry) := by
  obtain ⟨entry, hphase, hentry⟩ := h.phase
  have hknown : t.val ≤ (k.begun id th.entry).spawns + 1 := by
    rw [spawns_begun]
    exact h.known
  by_cases hid : id = t
  · subst hid
    refine ⟨h.up, hknown, none, ?_, fun th' hth' => Tables.entry_begun hth'⟩
    rw [starts_begun_self, hentry th hth]
    exact hlasts entry _ hphase
  · refine ⟨h.up, hknown, entry, ?_, fun th' hth' => hentry th' ?_⟩
    · rw [starts_begun_ne hid]
      exact hphase
    · exact (Tables.find?_begun_ne (Ne.symm hid)).symm.trans hth'

/-- From then on the thread is spent. -/
theorem InPhase.spent (h : InPhase t phase k) (entry : Option (Entry C.Body)) :
    InPhase t (.spent ((k.begun t entry).starts t)) (k.begun t entry) := by
  refine ⟨h.up, ?_, none, ⟨rfl, rfl⟩, fun th' hth' => Tables.entry_begun hth'⟩
  rw [spawns_begun]
  exact h.known

/-- A thread that was made just now is engaged, and has not started. -/
theorem Enrolled.engaged (h : Enrolled k) (hroom : k.spawns + 1 < Word.top)
    (hhires : k.Hires e k') : InPhase k.nextId (.engaged e) k' ∧ k'.starts k.nextId = [] := by
  have hnext := h.nextId_eq hhires.up hroom
  have hnever : k'.starts k.nextId = [] := by
    rw [hhires.starts]
    refine Classical.not_not.mp fun hstarted => ?_
    have := (h.known _ (.inr hstarted)).2
    omega
  refine ⟨⟨hhires.initialized, ?_, some e, .inl ⟨rfl, hnever⟩, fun th' hth' => ?_⟩, hnever⟩
  · rw [hhires.spawns]
    omega
  · rcases hhires.of_find? hth' with ⟨_, hentry⟩ | ⟨th, hth, _⟩
    · exact hentry
    · have := (h.known _ (.inl ⟨th, hth⟩)).2
      omega

theorem durable_enrolled : Durable fun k : Kernel C => k.spawns < Word.top → Enrolled k where
  kin hkin h hroom := (h (hkin.spawns ▸ hroom)).kin hkin
  adopted hfresh h hroom := (h hroom).adopted hfresh
  hired hhires h hroom := by
    have hroom := hhires.spawns ▸ hroom
    exact (h (by omega)).hired hroom hhires

/-- A thread stays in a phase as long as there are fresh ids. -/
theorem durable_inPhase (t : ThreadId) (phase : Phase C.Body) :
    Durable fun k : Kernel C => k.spawns < Word.top → Enrolled k ∧ InPhase t phase k where
  kin hkin h hroom := by
    obtain ⟨henrolled, hinPhase⟩ := h (hkin.spawns ▸ hroom)
    exact ⟨henrolled.kin hkin, hinPhase.kin hkin⟩
  adopted hfresh h hroom := by
    have hup := (h hroom).2.up
    rw [hfresh] at hup
    cases hup
  hired hhires h hroom := by
    have hroom := hhires.spawns ▸ hroom
    obtain ⟨henrolled, hinPhase⟩ := h (by omega)
    exact ⟨henrolled.hired hroom hhires, hinPhase.hired henrolled hroom hhires⟩

/-- The starts of a thread change when its entry begins, and in no other step. -/
theorem durable_starts (t : ThreadId) (starts : List Level) :
    Durable fun k : Kernel C => k.starts t = starts where
  kin hkin h := (hkin.starts t).trans h
  adopted _ h := h
  hired hhires h := (hhires.starts t).trans h

end Kernel

/-! ## Along a course -/

namespace Course

variable {may : Hooks C → Kernel C → Call C.Body → Prop} {config : Config} {client : C.State}

theorem enrolled (h₀ : Kernel.ofConfig config client = .ok k₀) (h : Course may k₀ k)
    (hroom : k.spawns < Word.top) : k.Enrolled := by
  refine h.lasts Kernel.durable_enrolled (fun henter hbefore hroom => ?_) (fun _ => ?_) hroom
  · obtain ⟨id, th, _, hth, _, rfl⟩ := Kernel.enter_eq_ok_iff.mp henter
    exact (hbefore (Kernel.spawns_begun id th.entry _ ▸ hroom)).begun hth
  · obtain ⟨_, _, rfl⟩ := Kernel.eq_of_ofConfig h₀
    refine ⟨rfl, fun _ => rfl, fun t ht => ?_⟩
    rcases ht with ⟨th, hth⟩ | hstarted
    · cases hth
    · exact absurd rfl hstarted

theorem inPhase {phase : Phase C.Body} (h : Course may k k') (hlasts : phase.Lasts)
    (hk : k.Enrolled ∧ k.InPhase t phase) (hroom : k'.spawns < Word.top) :
    k'.Enrolled ∧ k'.InPhase t phase := by
  refine h.lasts (Kernel.durable_inPhase t phase) (fun henter hbefore hroom => ?_) (fun _ => hk) hroom
  obtain ⟨id, th, _, hth, _, rfl⟩ := Kernel.enter_eq_ok_iff.mp henter
  obtain ⟨henrolled, hinPhase⟩ := hbefore (Kernel.spawns_begun id th.entry _ ▸ hroom)
  exact ⟨henrolled.begun hth, hinPhase.begun hlasts hth⟩

end Course

/-! ## Coming back -/

namespace Kernel

open Act

/-- A thread exited, in a kernel `k` in which it was current. -/
structure Ended (t : ThreadId) (k k' : Kernel C) : Prop where
  /-- It is dead, waits to be reclaimed, and has the page that it had. -/
  waits : ∃ th page, k.tables.threads.find? t = some th ∧ th.page = some page ∧
    k'.tables.Waits t page
  /-- The head of the queue runs, or the idle thread if the queue is empty. -/
  current : k'.tables.current = k.tables.upNext
  /-- Nobody else dies. -/
  others : ∀ i, i ≠ t → k'.tables.statusOf i = some .dying → k.tables.statusOf i = some .dying
  masked : Maskable.level k'.cpu = .off

theorem ended_of_exit (hq : hooks.QueryOnly) (hk : k.core.Accounted) (hroom : k.spawns < Word.top)
    (hc : k.tables.current = some t) (hboot : k.tables.boot ≠ some t)
    (hidle : k.tables.idle ≠ some t) (h : exit hooks k = .ok () k') : Ended t k k' := by
  obtain ⟨d, u, hleave, hcore⟩ := core_of_exit hq h
  have hparting := Tables.parting_of_leave hleave
  have htables : k'.tables = u := congrArg Core.tables hcore
  have hprevious : d.previous = t := Option.some.inj (hparting.previous.symm.trans hc)
  have hsound : u.Sound := (hk.coherent.sound_of_current hroom hc).leave hleave
  have hwaits : ∃ page, u.Waits d.previous page := by
    refine (hk.waits_of_exit hroom ?_ ?_ hleave).2
    · rw [hprevious]; exact hboot
    · rw [hprevious]; exact hidle
  rw [hprevious] at hwaits
  obtain ⟨page, hwaits⟩ := hwaits
  refine ⟨?_, ?_, fun i hi hdying => ?_, ((disciplined_exit hq.disciplined).returns rfl h).1⟩
  · obtain ⟨th', hth', _, hpage⟩ := hwaits.dead
    obtain ⟨th, hth, hsame⟩ := hparting.survive t th' hth'
    exact ⟨th, page, hth, hsame.page.symm.trans hpage, htables ▸ hwaits⟩
  · rw [htables, hparting.current]
    exact hparting.next.symm
  · rw [htables] at hdying
    obtain ⟨th', hth', hdead⟩ := Tables.statusOf_eq_some_iff.mp hdying
    by_cases hnext : i = d.next
    · -- the next thread runs
      have hrun := (hsound.running_iff hth').mpr (hnext ▸ hparting.current)
      rw [hdead] at hrun
      cases hrun
    · rw [hparting.others i (hprevious ▸ hi) hnext] at hth'
      split at hth'
      · cases hth'
      · exact Tables.statusOf_eq_some_iff.mpr ⟨th', hth', hdead⟩

/-- The trampoline of a thread that is alive runs what the thread has to run. -/
theorem trampoline_of_current {th : Thread C.Body} (hc : k.tables.current = some t)
    (hth : k.tables.threads.find? t = some th) (body : C.Body → Act C Bool) (idle : Act C Unit) :
    trampoline hooks body idle k = follow hooks body idle th.entry (k.begun t th.entry) := by
  rw [trampoline_eq, bind_of_ok (enter_of_current hc hth)]

/-- The trampoline of a thread that has its entry runs it, and a later one of that thread runs no
body. -/
theorem InPhase.runs {th : Thread C.Body} (h : InPhase t (.engaged e) k)
    (hc : k.tables.current = some t) (hth : k.tables.threads.find? t = some th) :
    (th.entry = some e ∧ k.starts t = [] ∧ ∀ hooks body idle, trampoline hooks body idle k
      = follow hooks body idle (some e) (k.begun t (some e))) ∨
    (th.entry = none ∧ ∀ hooks body idle, trampoline hooks body idle k
      = (do exit hooks; return .exited : Act C Ending) (k.begun t none)) := by
  obtain ⟨entry, hphase, hliving⟩ := h.phase
  have hentry := hliving th hth
  rcases hphase with ⟨rfl, hnever⟩ | ⟨rfl, _⟩
  · refine .inl ⟨hentry, hnever, fun hooks body idle => ?_⟩
    rw [trampoline_of_current hc hth, hentry]
  · refine .inr ⟨hentry, fun hooks body idle => ?_⟩
    rw [trampoline_of_current hc hth, hentry]
    rfl

end Kernel

/-! ## Every entry -/

/-- A thread was made with something to run. -/
inductive Kernel.MadeWith (k : Kernel C) : ThreadId → Entry C.Body → Kernel C → Prop where
  | create {name : String} {priority : Nat} {b : C.Body} {t : ThreadId} {k₁ : Kernel C}
      (made : Kernel.create name priority b k = .ok (.ok t) k₁) : MadeWith k t (.body b) k₁
  /-- The idle thread, which has its loop to run. -/
  | start {t : ThreadId} {k₁ : Kernel C} (made : Kernel.start k = .ok (.ok ()) k₁)
      (idle : k₁.tables.idle = some t) : MadeWith k t .idleLoop k₁

theorem Kernel.MadeWith.hires (h : k.MadeWith t e k₁) : t = k.nextId ∧ k.Hires e k₁ := by
  cases h with
  | create made =>
    rcases hires_of_create made with ⟨⟨_, he⟩, _⟩ | ⟨hid, hhires⟩
    · cases he
    · cases hid
      exact ⟨rfl, hhires⟩
  | start made idle =>
    rcases hires_of_start made with ⟨⟨_, he⟩, _⟩ | ⟨_, hid, hhires⟩
    · cases he
    · rw [hid, Option.some.injEq] at idle
      exact ⟨idle.symm, hhires⟩

/-- What becomes of the entry `e` of a thread `t` that was made in the step to `k₁`, as seen from a later
`k`. -/
structure EntryRuns (may : Hooks C → Kernel C → Call C.Body → Prop) (t : ThreadId) (e : Entry C.Body)
    (k₁ k : Kernel C) : Prop where
  /-- The thread has started its body once at most, and with interrupts on. -/
  fresh : k₁.starts t = []
  once : k.starts t = [] ∨ k.starts t = [.on]
  /-- When the thread is current, a trampoline runs the entry, or no body if the thread has it no
  longer. -/
  runs : k.tables.current = some t → ∀ th, k.tables.threads.find? t = some th →
    (th.entry = some e ∧ k.starts t = [] ∧ ∀ hooks body idle,
      Kernel.trampoline hooks body idle k
        = Kernel.follow hooks body idle (some e) (k.begun t (some e))) ∨
    (th.entry = none ∧ ∀ hooks body idle, Kernel.trampoline hooks body idle k
      = (do Kernel.exit hooks; return .exited : Act C Kernel.Ending) (k.begun t none))
  /-- In the kernel in which the entry begins the thread is current and interrupts are on, whatever they
  were. -/
  begins : (k.begun t (some e)).tables.current = k.tables.current ∧
    Maskable.level (k.begun t (some e)).cpu = .on ∧
    (k.begun t (some e)).starts t = Entry.levels (some e) ++ k.starts t
  /-- After a trampoline of the thread it has nothing to run any more, and starts no more. -/
  spent : ∀ {entry : Option (Entry C.Body)} {k' k'' : Kernel C}, k.tables.current = some t →
    Kernel.enter k = .ok entry k' → Course may k' k'' → k''.spawns < Word.top →
    k''.starts t = k'.starts t ∧
      ∀ th, k''.tables.threads.find? t = some th → th.entry = none
  /-- The trampoline of another thread does not start it, -/
  others : ∀ {entry : Option (Entry C.Body)} {k' : Kernel C}, Kernel.enter k = .ok entry k' →
    k.tables.current ≠ some t → k'.starts t = k.starts t
  /-- and no call does, unless a hook in it does. -/
  calls : ∀ {hooks : Hooks C} {c : Call C.Body} {r : Reply} {k' : Kernel C},
    hooks.Keep (fun m => m.starts t = k.starts t) → c.perform hooks k = .ok r k' →
    k'.starts t = k.starts t
  /-- When a body comes back on a started kernel, with its thread current again, the trampoline ends
  the thread. -/
  ends : ∀ {b : C.Body}, e = .body b → (∀ hooks m c, may hooks m c → Course.decent hooks m c) →
    k.started = true → k.tables.current = some t → k.starts t = [] →
    ∀ {hooks : Hooks C} {body : C.Body → Act C Bool} {idle : Act C Unit} {k' : Kernel C},
      hooks.QueryOnly → hooks.Prompt → body b (k.begun t (some (.body b))) = .ok true k' →
      Course may (k.begun t (some (.body b))) k' → k'.tables.current = some t →
      k'.tables.boot ≠ some t → k'.tables.idle ≠ some t → k'.spawns < Word.top →
      k'.decisions.length < Word.top →
      ∃ k'', Kernel.trampoline hooks body idle k = .ok .exited k'' ∧ Kernel.Ended t k' k''

namespace Course

variable {may : Hooks C → Kernel C → Call C.Body → Prop} {config : Config} {client : C.State}

theorem of_madeWith (hmay : ∀ c : Call C.Body, c ≠ .exit → may .plain k c)
    (h : k.MadeWith t e k₁) : Course may k k₁ := by
  cases h with
  | @create name priority b _ _ made =>
    have hallowed := hmay (.create name priority b) nofun
    exact .of_call Hooks.queryOnly_plain hallowed ((Act.bind_of_ok made).trans rfl)
  | start made =>
    have hallowed := hmay .start nofun
    exact .of_call Hooks.queryOnly_plain hallowed ((Act.bind_of_ok made).trans rfl)

/-- When a body comes back and its thread is current again, the exit in the trampoline is carried out. -/
theorem ended (hq : hooks.QueryOnly) (hp : hooks.Prompt)
    (h₀ : Kernel.ofConfig config client = .ok k₀) (h : Course decent k₀ k)
    (hstarted : k.started = true) (hspawns : k.spawns < Word.top)
    (hdecisions : k.decisions.length < Word.top) (hc : k.tables.current = some t)
    (hboot : k.tables.boot ≠ some t) (hidle : k.tables.idle ≠ some t) :
    ∃ k', Kernel.exit hooks k = .ok () k' ∧ Kernel.Ended t k k' := by
  obtain ⟨_, k', hexit⟩ := Kernel.exit_returns hq hp (h.able h₀ hstarted hspawns hdecisions)
  exact ⟨k', hexit, Kernel.ended_of_exit hq (h.manned h₀).accounted hspawns hc hboot hidle hexit⟩

/-- A trampoline whose body comes back with its thread current ends the thread. -/
theorem trampoline_ends {b : C.Body} {body : C.Body → Act C Bool} {idle : Act C Unit}
    (hq : hooks.QueryOnly) (hp : hooks.Prompt) (h₀ : Kernel.ofConfig config client = .ok k₀)
    (h : Course decent k₀ k) (hspawns : k.spawns < Word.top) (hstarted : k.started = true)
    (hengaged : k.InPhase t (.engaged (.body b))) (hc : k.tables.current = some t)
    (hnever : k.starts t = []) (hbody : body b (k.begun t (some (.body b))) = .ok true k')
    (hduring : Course decent (k.begun t (some (.body b))) k') (hc' : k'.tables.current = some t)
    (hboot : k'.tables.boot ≠ some t) (hidle : k'.tables.idle ≠ some t)
    (hspawns' : k'.spawns < Word.top) (hdecisions : k'.decisions.length < Word.top) :
    ∃ k'', Kernel.trampoline hooks body idle k = .ok .exited k'' ∧ Kernel.Ended t k' k'' := by
  -- the scheduler is whole, so the current thread is alive, and it has its entry still
  obtain ⟨c, th, hcurrent, hth, _⟩ :=
    ((h.manned h₀).accounted.coherent.sound_of_current hspawns hc).current_runs
  obtain rfl : c = t := Option.some.inj (hcurrent.symm.trans hc)
  obtain ⟨entry, hphase, hliving⟩ := hengaged.phase
  have hentry : th.entry = some (.body b) := by
    rw [hliving th hth]
    rcases hphase with ⟨hentry, _⟩ | ⟨_, honce⟩
    · exact hentry
    · rw [hnever] at honce
      cases honce
  have henter : Kernel.enter k = .ok (some (.body b)) (k.begun c (some (.body b))) :=
    hentry ▸ Kernel.enter_of_current hc hth
  have hwhole : Course decent k₀ k' := (h.trans (.enter henter)).trans hduring
  have hstarted' : k'.started = true :=
    hduring.keeps Core.kept_started (fun _ hs => hs) hstarted
  obtain ⟨k'', hexit, hended⟩ :=
    hwhole.ended hq hp h₀ hstarted' hspawns' hdecisions hc' hboot hidle
  refine ⟨k'', ?_, hended⟩
  rw [Kernel.trampoline_of_current hc hth, hentry]
  exact (Act.bind_of_ok hbody).trans ((Act.bind_of_ok hexit).trans rfl)

end Course

/-- Whatever the threads of a kernel run, and whatever a process layer does, every entry runs once, in a
trampoline of its own thread. When it comes back, and hooks only ask, its thread ends. -/
theorem entry_runs_once {may : Hooks C → Kernel C → Call C.Body → Prop} {config : Config}
    {client : C.State} (h₀ : Kernel.ofConfig config client = .ok k₀) (hbefore : Course may k₀ k)
    (hmade : k.MadeWith t e k₁) (hsince : Course may k₁ k₂) (hspawns : k₂.spawns < Word.top) :
    EntryRuns may t e k₁ k₂ := by
  obtain ⟨rfl, hhires⟩ := hmade.hires
  have hroom : k.spawns + 1 < Word.top :=
    hhires.spawns ▸ Nat.lt_of_le_of_lt hsince.spawns_le hspawns
  have henrolled := hbefore.enrolled h₀ (Nat.lt_of_succ_lt hroom)
  obtain ⟨hengaged, hfresh⟩ := henrolled.engaged hroom hhires
  obtain ⟨henrolled₂, hengaged₂⟩ := hsince.inPhase (Phase.lasts_engaged e)
    ⟨henrolled.hired hroom hhires, hengaged⟩ hspawns
  constructor
  case fresh => exact hfresh
  case once =>
    obtain ⟨_, hphase, _⟩ := hengaged₂.phase
    exact Phase.starts_of_engaged hphase
  case runs => exact fun hc th hth => hengaged₂.runs hc hth
  case begins =>
    exact ⟨rfl, FlagCpu.level_setLevel .on k₂.cpu, Kernel.starts_begun_self _ _ k₂⟩
  case spent =>
    intro entry k' k'' hc henter hlater hroom''
    obtain ⟨id, th, hid, hth, _, rfl⟩ := Kernel.enter_eq_ok_iff.mp henter
    obtain rfl : id = k.nextId := Option.some.inj (hid.symm.trans hc)
    obtain ⟨_, hlast⟩ := hlater.inPhase (Phase.lasts_spent _)
      ⟨henrolled₂.begun hth, hengaged₂.spent th.entry⟩ hroom''
    obtain ⟨_, ⟨rfl, hsame⟩, hnothing⟩ := hlast.phase
    exact ⟨hsame, hnothing⟩
  case others =>
    intro entry k' henter hother
    obtain ⟨id, th, hc, _, _, rfl⟩ := Kernel.enter_eq_ok_iff.mp henter
    exact Kernel.starts_begun_ne fun hid => hother (hid ▸ hc)
  case calls =>
    intro hooks c r k' hkeep hstep
    exact c.keeps (Kernel.durable_starts _ _) hkeep k₂ r k' hstep rfl
  case ends =>
    intro b he hdecent hstarted hc hnever hooks body idle k' hq hp hbody hduring
    subst he
    have hsofar : Course Course.decent k₀ k₂ := ((hbefore.mono hdecent).trans
      (.of_madeWith (fun _ hc => ⟨Hooks.queryOnly_plain, fun h => absurd h hc⟩) hmade)).trans
      (hsince.mono hdecent)
    exact hsofar.trampoline_ends hq hp h₀ hspawns hstarted hengaged₂ hc hnever hbody
      (hduring.mono hdecent)

/-- The result of an operation with the kernel that it leaves, if it comes back. -/
def Act.outcome {α : Type} (act : Act C α) (k : Kernel C) : Option (α × Kernel C) :=
  match act k with
  | .ok a k' => some (a, k')
  | .error _ _ => none

theorem Act.outcome_eq_some_iff {α : Type} {act : Act C α} {a : α} :
    act.outcome k = some (a, k') ↔ act k = .ok a k' := by
  unfold outcome
  cases act k with
  | ok b m => simp
  | error f m => simp

/-- A body that lets the other threads run twice, and comes back. -/
def yieldTwice (_ : Unit) : Act plainClient Bool := do
  Kernel.yieldNow .plain
  Kernel.yieldNow .plain
  return true

theorem course_yieldNow : (Kernel.yieldNow .plain : Act plainClient Unit).Within
    (Course Course.decent) := by
  intro k u k' h
  have hallowed : Course.decent .plain k .yieldNow := ⟨Hooks.queryOnly_plain, nofun⟩
  exact .of_call Hooks.queryOnly_plain hallowed ((Act.bind_of_ok h).trans rfl)

/-- The worker lets the thread that booted run, gets the processor back, and ends. -/
theorem entry_runs_once_worker : ∃ (k k₁ k₂ k' : Kernel plainClient) (t : ThreadId),
    plainKernel.after .plain Kernel.admits [.init, .start] = some k ∧
    Kernel.create "worker" 31 () k = .ok (.ok t) k₁ ∧
    k₁.after .plain Kernel.admits [.yieldNow] = some k₂ ∧
    k₂.tables.current = some t ∧
    Kernel.trampoline .plain yieldTwice (pure ()) k₂ = .ok .exited k' ∧
    k'.tables.current = some .first ∧ ∃ page, k'.tables.Waits t page := by
  have hchecks : (plainKernel.after .plain Kernel.admits [.init, .start]).any (fun k =>
      ((Kernel.create "worker" 31 ()).outcome k).any fun made => made.1.toOption.any fun t =>
        (made.2.after .plain Kernel.admits [.yieldNow]).any fun k₂ =>
          k₂.started && decide (k₂.tables.current = some t) && decide (k₂.starts t = []) &&
          decide (k₂.spawns < Word.top) &&
          ((yieldTwice ()).outcome (k₂.begun t (some (.body ())))).any fun back =>
            back.1 && decide (back.2.tables.current = some t) &&
            decide (back.2.tables.boot ≠ some t) && decide (back.2.tables.idle ≠ some t) &&
            decide (back.2.spawns < Word.top) && decide (back.2.decisions.length < Word.top) &&
            decide (back.2.tables.upNext = some .first)) = true := by decide +kernel
  obtain ⟨k, hk, hchecks⟩ := (Option.any_eq_true _ _).mp hchecks
  obtain ⟨⟨r, k₁⟩, hcreate, hmade⟩ := (Option.any_eq_true _ _).mp hchecks
  obtain ⟨t, ht, hcalled⟩ := (Option.any_eq_true _ _).mp hmade
  obtain ⟨k₂, hk₂, hseen⟩ := (Option.any_eq_true _ _).mp hcalled
  rw [Act.outcome_eq_some_iff] at hcreate
  cases r with
  | error => cases ht
  | ok =>
    cases ht
    simp only [Bool.and_eq_true, decide_eq_true_eq] at hseen
    obtain ⟨⟨⟨⟨hstarted, hc⟩, hnever⟩, hspawns⟩, hreturns⟩ := hseen
    obtain ⟨⟨returned, m⟩, hbody, hback⟩ := (Option.any_eq_true _ _).mp hreturns
    rw [Act.outcome_eq_some_iff] at hbody
    simp only [Bool.and_eq_true, decide_eq_true_eq] at hback
    obtain ⟨⟨⟨⟨⟨⟨rfl, hc'⟩, hboot⟩, hidle⟩, hroom⟩, hdecisions⟩, hnext⟩ := hback
    have hbefore : Course Course.decent plainKernel k := .of_run Hooks.queryOnly_plain
      (fun _ _ => Course.decent_of_orderly Hooks.queryOnly_plain) (Run.of_after hk)
    have hsince : Course Course.decent k₁ k₂ := .of_run Hooks.queryOnly_plain
      (fun _ _ => Course.decent_of_orderly Hooks.queryOnly_plain) (Run.of_after hk₂)
    have hduring : Course Course.decent (k₂.begun t (some (.body ()))) m :=
      (course_yieldNow.bind .trans fun _ => course_yieldNow.bind .trans fun _ =>
        Act.within_pure .refl true) _ _ _ hbody
    obtain ⟨k', hover, hended⟩ :=
      (entry_runs_once ofConfig_standard hbefore (.create hcreate) hsince hspawns).ends rfl
        (fun _ _ _ h => h) hstarted hc hnever Hooks.queryOnly_plain Hooks.prompt_plain hbody hduring
        hc' hboot hidle hroom hdecisions
    obtain ⟨_, page, _, _, hwaits⟩ := hended.waits
    exact ⟨k, k₁, k₂, k', t, hk, hcreate, hk₂, hc, hover, hended.current.trans hnext, page, hwaits⟩

end RoundRobin
