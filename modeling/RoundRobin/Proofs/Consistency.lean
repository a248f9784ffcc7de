import RoundRobin.Proofs.Kernel.Coherent

/-!
# The containers agree with the threads

In every state of every run, what the four containers hold is what the threads say of themselves, and
exactly one thread runs. `Consistent` says it in full, and in terms of the tables alone.
-/

namespace RoundRobin

/-- The containers hold what the threads say, and one thread runs. -/
structure Tables.Consistent {β : Type} (t : Tables β) : Prop where
  /-- One control block for each id. -/
  distinct : t.threads.Distinct
  /-- The current thread runs and is in no container. -/
  current_runs : ∃ c th, t.current = some c ∧ t.threads.find? c = some th ∧
    th.status = .running ∧ th.link = .unlinked
  /-- No other thread runs. -/
  only_current_runs : ∀ id th, t.threads.find? id = some th → th.status = .running →
    t.current = some id
  queue_nodup : t.ready.ids.Nodup
  mem_queue_iff_link : ∀ id, id ∈ t.ready.ids ↔
    ∃ th, t.threads.find? id = some th ∧ th.link = .ready
  mem_queue_iff_status : ∀ id, id ∈ t.ready.ids ↔
    t.idle ≠ some id ∧ ∃ th, t.threads.find? id = some th ∧ th.status = .ready
  idle_not_queued : ∀ id, t.idle = some id → id ∉ t.ready.ids
  sleepers_nodup : (t.sleepers.sleepers.map (·.thread)).Nodup
  mem_sleepers_iff_link : ∀ id, id ∈ t.sleepers.sleepers.map (·.thread) ↔
    ∃ th, t.threads.find? id = some th ∧ th.link = .sleeping
  /-- Who sleeps is blocked, and registered under the wake tick that it keeps. -/
  sleeper : ∀ s ∈ t.sleepers.sleepers, ∃ th, t.threads.find? s.thread = some th ∧
    th.status = .blocked ∧ th.wakeTick = s.wakeTick
  reclaim_nodup : t.reclaim.Nodup
  mem_reclaim_iff_link : ∀ id, id ∈ t.reclaim ↔
    ∃ th, t.threads.find? id = some th ∧ th.link = .reclaim
  reclaimed_dying : ∀ id ∈ t.reclaim, ∃ th, t.threads.find? id = some th ∧ th.status = .dying
  dying : ∀ id th, t.threads.find? id = some th → th.status = .dying →
    id ∈ t.reclaim ∨ t.boot = some id
  /-- Every id in a container finds a control block that carries it. -/
  live : ∀ id ∈ t.ready.ids ++ t.sleepers.sleepers.map (·.thread) ++ t.reclaim,
    ∃ th, t.threads.find? id = some th ∧ th.id = id

namespace Tables

theorem Sound.consistent {β : Type} {t : Tables β} (h : Sound t) : t.Consistent where
  distinct := h.distinct
  current_runs := by
    obtain ⟨c, th, hc, hth, hrun⟩ := h.current_runs
    have hlink := h.linkOf_current hc
    rw [linkOf_of_find? hth, Option.some.injEq] at hlink
    exact ⟨c, th, hc, hth, hrun, hlink⟩
  only_current_runs id th hth hrun := (h.running_iff hth).mp hrun
  queue_nodup := h.nodup .ready
  mem_queue_iff_link id := h.mem_iff_link (l := .ready) nofun
  mem_queue_iff_status id := by
    refine (h.mem_iff_link (l := .ready) nofun).trans ⟨?_, ?_⟩
    · rintro ⟨th, hth, hl⟩
      obtain ⟨hst, hidle⟩ := (h.status_of_link hth).1 hl
      exact ⟨hidle, th, hth, hst⟩
    · rintro ⟨hidle, th, hth, hst⟩
      exact ⟨th, hth, h.link_of_ready hth hst hidle⟩
  idle_not_queued id hidle hid := by
    obtain ⟨th, hth, hl⟩ := (h.mem_iff_link (l := .ready) nofun).mp hid
    exact ((h.status_of_link hth).1 hl).2 hidle
  sleepers_nodup := h.nodup .sleeping
  mem_sleepers_iff_link id := h.mem_iff_link (l := .sleeping) nofun
  sleeper s hs := by
    obtain ⟨th, hth, hl⟩ := (h.mem_iff_link (l := .sleeping) nofun).mp (List.mem_map_of_mem hs)
    exact ⟨th, hth, ((h.status_of_link hth).2.1 hl).1, h.wakeTick s hs th hth⟩
  reclaim_nodup := h.nodup .reclaim
  mem_reclaim_iff_link id := h.mem_iff_link (l := .reclaim) nofun
  reclaimed_dying id hid := by
    obtain ⟨th, hth, hl⟩ := (h.mem_iff_link (l := .reclaim) nofun).mp hid
    exact ⟨th, hth, ((h.status_of_link hth).2.2 hl).1⟩
  dying id th hth hst := by
    by_cases hboot : t.boot = some id
    · exact .inr hboot
    · exact .inl ((h.mem_iff_link (l := .reclaim) nofun).mpr ⟨th, hth, h.link_of_dying hth hst hboot⟩)
  live id hid := by
    have hfind : ∃ l, l ≠ .unlinked ∧ id ∈ t.members l := by
      simp only [List.mem_append] at hid
      rcases hid with (hid | hid) | hid
      · exact ⟨.ready, nofun, hid⟩
      · exact ⟨.sleeping, nofun, hid⟩
      · exact ⟨.reclaim, nofun, hid⟩
    obtain ⟨l, hl, hid⟩ := hfind
    obtain ⟨th, hth, _⟩ := (h.mem_iff_link hl).mp hid
    exact ⟨th, hth, ThreadTable.id_of_find? hth⟩

end Tables

variable {C : Client} {hooks : Hooks C} {config : Config} {client : C.State} {k₀ k : Kernel C}
  {calls : List (Call C.Body)}

/-- Whatever was called and in whatever order, the containers of an initialized kernel agree with its
threads. -/
theorem consistent_of_run (hq : hooks.QueryOnly) (h₀ : Kernel.ofConfig config client = .ok k₀)
    (hrun : Run hooks anyCall k₀ calls k) (hup : k.initialized = true)
    (hspawns : k.spawns < Word.top) : k.tables.Consistent :=
  ((hrun.coherent hq h₀).recorded hspawns hup).sound.consistent

/-- A worker was made and the thread that booted sleeps: the containers agree with the threads. -/
theorem consistent_while_asleep : ∃ k : Kernel plainClient,
    plainKernel.after .plain (fun _ _ => true) [.init, .start, .create "worker" 31 (), .sleep 2]
      = some k ∧ k.tables.Consistent := by
  have hafter : (plainKernel.after .plain (fun _ _ => true)
      [.init, .start, .create "worker" 31 (), .sleep 2]).any
        (fun k => k.initialized && decide (k.spawns < Word.top)) = true := by decide +kernel
  obtain ⟨k, hk, hchecks⟩ := (Option.any_eq_true _ _).mp hafter
  obtain ⟨hup, hspawns⟩ := (Bool.and_eq_true _ _).mp hchecks
  exact ⟨k, hk, consistent_of_run Hooks.queryOnly_plain ofConfig_standard
    ((Run.of_after hk).mono fun _ _ _ => trivial) hup (of_decide_eq_true hspawns)⟩

end RoundRobin
