import RoundRobin.Proofs.IdleThread
import RoundRobin.Proofs.Kernel.Durable
import RoundRobin.Proofs.Tables.Begun

/-!
# Courses

The code of a thread is a program of calls: it chooses them as it goes, notes things of its own, and may
run other threads' code in the middle. A `Course` leads from one kernel to another by such steps. It
does not matter which code makes them, nor whether a hook of the process layer does, so a trampoline
leads along a course when the code that it runs does.
-/

namespace RoundRobin

variable {C : Client} {hooks : Hooks C} {k k' k₁ : Kernel C}

/-! ## Beginning an entry -/

namespace Kernel

open Act

variable {body : C.Body → Act C Bool} {idle : Act C Unit} {id : ThreadId} {th : Thread C.Body}
  {entry : Option (Entry C.Body)}

/-- A trampoline up to the point where it runs what it took out of the current thread. -/
def enter : Act C (Option (Entry C.Body)) := do
  let (id, entry) ← takeEntry
  setLevel .on
  if let some (.body _) := entry then record (.entered id (← level))
  return entry

/-- The rest of a trampoline. -/
def follow (hooks : Hooks C) (body : C.Body → Act C Bool) (idle : Act C Unit) :
    Option (Entry C.Body) → Act C Ending
  | some .idleLoop => do
    idle
    return .halted
  | some (.body b) => do
    if ← body b then
      exit hooks
      return .exited
    else
      return .stuck
  | none => do
    exit hooks
    return .exited

/-- A trampoline begins an entry and follows it. -/
theorem trampoline_eq (hooks : Hooks C) (body : C.Body → Act C Bool) (idle : Act C Unit) :
    trampoline hooks body idle = enter >>= follow hooks body idle := by
  unfold trampoline enter
  rw [bind_assoc]
  refine congrArg (takeEntry >>= ·) (funext fun ⟨id, entry⟩ => ?_)
  match entry with
  | none => rfl
  | some .idleLoop => rfl
  | some (.body b) => rfl

/-- What is noted when an entry begins. -/
def entering (id : ThreadId) : Option (Entry C.Body) → List (Event C.Note)
  | some (.body _) => [.entered id .on]
  | _ => []

/-- The kernel in which the entry of a thread begins: the thread has it no longer, and interrupts are
on. -/
def begun (id : ThreadId) (entry : Option (Entry C.Body)) (k : Kernel C) : Kernel C :=
  { k with
    cpu := Maskable.setLevel .on k.cpu
    tables := k.tables.begun id
    history := entering id entry ++ .updated .off :: k.history }

theorem takeEntry_of_current (hc : k.tables.current = some id)
    (hth : k.tables.threads.find? id = some th) : takeEntry k
      = .ok (id, th.entry) { k with
          tables := k.tables.begun id, history := .updated .off :: k.history } :=
  masked_update_of_ok (Fault.bind_eq_ok_iff.mpr ⟨id, Tables.currentId_eq_ok_iff.mpr hc,
    Fault.bind_eq_ok_iff.mpr ⟨th, Tables.thread_eq_ok_iff.mpr hth, rfl⟩⟩)

theorem enter_of_current (hc : k.tables.current = some id)
    (hth : k.tables.threads.find? id = some th) : enter k = .ok th.entry (k.begun id th.entry) := by
  unfold enter
  rw [bind_of_ok (takeEntry_of_current hc hth)]
  cases hentry : th.entry with
  | none => rfl
  | some e =>
    cases e with
    | idleLoop => rfl
    | body b =>
      dsimp only
      rw [setLevel_bind, level_bind, FlagCpu.level_setLevel]
      rfl

theorem enter_eq_ok_iff : enter k = .ok entry k' ↔ ∃ id th, k.tables.current = some id ∧
    k.tables.threads.find? id = some th ∧ entry = th.entry ∧ k' = k.begun id th.entry := by
  constructor
  · intro h
    obtain ⟨r, k₁, htake, _⟩ := bind_eq_ok_iff.mp h
    obtain ⟨k₂, hsection, _⟩ := masked_eq_ok_iff.mp htake
    obtain ⟨t, ht, _⟩ := update_eq_ok_iff.mp hsection
    obtain ⟨id, hc, ht⟩ := Fault.bind_eq_ok_iff.mp ht
    obtain ⟨th, hth, _⟩ := Fault.bind_eq_ok_iff.mp ht
    have hc : k.tables.current = some id := Tables.currentId_eq_ok_iff.mp hc
    have hth : k.tables.threads.find? id = some th := Tables.thread_eq_ok_iff.mp hth
    rw [enter_of_current hc hth] at h
    cases h
    exact ⟨id, th, hc, hth, rfl, rfl⟩
  · rintro ⟨id, th, hc, hth, rfl, rfl⟩
    exact enter_of_current hc hth

end Kernel

/-! ## Courses -/

namespace Event

variable {ν : Type} {e : Event ν}

/-- Whether an event is the running code's own: a note, a report, or turns of the delay loop. -/
def isAside : Event ν → Bool
  | log (.calibrated _) => true
  | log (.tickStats _) => true
  | log (.tickCount _) => true
  | spun _ => true
  | note _ => true
  | _ => false

theorem isAside_of_isReport (h : e.isReport = true) : e.isAside = true := by
  unfold isReport at h
  split at h
  · rfl
  · rfl
  · rfl
  · cases h

/-- An event of the running code's own is about no thread. -/
theorem of_isAside (h : e.isAside = true) :
    e.isSpawn = false ∧ e.decision? = none ∧ e.isStart = false := by
  unfold isAside at h
  split at h
  · exact ⟨rfl, rfl, rfl⟩
  · exact ⟨rfl, rfl, rfl⟩
  · exact ⟨rfl, rfl, rfl⟩
  · exact ⟨rfl, rfl, rfl⟩
  · exact ⟨rfl, rfl, rfl⟩
  · cases h

end Event

/-- Steps of running code, one after another. `may` says which calls may be made in which state, and with
which process layer. What the hooks do in a call is again a course. -/
inductive Course (may : Hooks C → Kernel C → Call C.Body → Prop) : Kernel C → Kernel C → Prop where
  | refl (k : Kernel C) : Course may k k
  | trans {k k₁ k' : Kernel C} : Course may k k₁ → Course may k₁ k' → Course may k k'
  /-- The code does something of its own. -/
  | aside {k : Kernel C} {events : List (Event C.Note)} {client : C.State}
      (own : ∀ e ∈ events, e.isAside = true) :
      Course may k { k with history := events ++ k.history, client }
  | halt {k k' : Kernel C} (halts : Act.halt k = .ok () k') : Course may k k'
  /-- The entry of the current thread begins. -/
  | enter {k k' : Kernel C} {entry : Option (Entry C.Body)} (enters : Kernel.enter k = .ok entry k') :
      Course may k k'
  | call {hooks : Hooks C} {c : Call C.Body} {r : Reply} {k k' : Kernel C} (allowed : may hooks k c)
      (activate : ∀ i m u m', hooks.activate i m = .ok u m' → Course may m m')
      (exit : ∀ i m u m', hooks.exit i m = .ok u m' → Course may m m')
      (isUser : ∀ i m u m', hooks.isUser i m = .ok u m' → Course may m m')
      (step : c.perform hooks k = .ok r k') : Course may k k'

namespace Course

variable {may may' : Hooks C → Kernel C → Call C.Body → Prop}

/-- What only asks does something of its own. -/
theorem of_onlyAsks {α : Type} {act : Act C α} {a : α} (hask : act.OnlyAsks)
    (h : act k = .ok a k') : Course may k k' := by
  obtain ⟨reports, client, hreports, rfl⟩ := hask k a k' h
  exact aside fun e he => Event.isAside_of_isReport (hreports e he)

theorem of_call {c : Call C.Body} {r : Reply} (hq : hooks.QueryOnly) (hmay : may hooks k c)
    (h : c.perform hooks k = .ok r k') : Course may k k' :=
  call hmay (fun i _ _ _ hact => of_onlyAsks (hq.activate i) hact)
    (fun i _ _ _ hact => of_onlyAsks (hq.exit i) hact)
    (fun i _ _ _ hact => of_onlyAsks (hq.isUser i) hact) h

/-- A run is a course. -/
theorem of_run {allowed : Kernel C → Call C.Body → Prop} {calls : List (Call C.Body)}
    (hq : hooks.QueryOnly) (hmay : ∀ k c, allowed k c → may hooks k c)
    (hrun : Run hooks allowed k calls k') : Course may k k' := by
  induction hrun with
  | nil => exact refl k
  | snoc _ hallowed step ih => exact ih.trans (of_call hq (hmay _ _ hallowed) step)

theorem mono (hle : ∀ hooks k c, may hooks k c → may' hooks k c) (h : Course may k k') :
    Course may' k k' := by
  induction h with
  | refl k => exact refl k
  | trans _ _ hfirst hrest => exact hfirst.trans hrest
  | aside own => exact aside own
  | halt halts => exact halt halts
  | enter enters => exact enter enters
  | call allowed _ _ _ step hactivate hexit hisUser =>
    exact call (hle _ _ _ allowed) hactivate hexit hisUser step

/-! ## What lasts along a course -/

/-- What code does of its own is about no thread. -/
theorem kin_aside {events : List (Event C.Note)} {client : C.State}
    (hown : ∀ e ∈ events, e.isAside = true) (k : Kernel C) :
    k.Kin { k with history := events ++ k.history, client } := by
  have hspawn : events.countP (·.isSpawn) = 0 := by
    rw [List.countP_eq_zero]
    intro e he
    rw [(Event.of_isAside (hown e he)).1]
    exact nofun
  have hstart : ∀ t, events.filterMap (Event.startOf t) = [] := by
    intro t
    rw [List.filterMap_eq_nil_iff]
    exact fun e he => Event.startOf_of_not_isStart (Event.of_isAside (hown e he)).2.2 t
  refine ⟨.refl _, rfl, rfl, rfl, ?_, fun t => ?_⟩
  · show List.countP _ (events ++ k.history) = _
    rw [List.countP_append, hspawn, Nat.zero_add]
    rfl
  · show List.filterMap _ (events ++ k.history) = _
    rw [List.filterMap_append, hstart, List.nil_append]
    rfl

/-- A durable property lasts along a course if it lasts when an entry begins. -/
theorem lasts {P : Kernel C → Prop} (hP : Kernel.Durable P)
    (henter : ∀ {entry k k'}, Kernel.enter k = .ok entry k' → P k → P k')
    (h : Course may k k') : P k → P k' := by
  induction h with
  | refl => exact fun hk => hk
  | trans _ _ hfirst hrest => exact fun hk => hrest (hfirst hk)
  | aside hown => exact hP.kin (kin_aside hown _)
  | halt halts =>
    obtain ⟨_, rfl⟩ := Kernel.eq_of_halt halts
    exact hP.kin ((Kernel.kin_record rfl rfl _).trans ⟨.refl _, rfl, rfl, rfl, rfl, fun _ => rfl⟩)
  | enter enters => exact henter enters
  -- the induction hypotheses are what the hooks keep
  | @call hooks c r m m' _ _ _ _ step hactivate hexit hisUser =>
    exact c.keeps hP ⟨hactivate, hexit, hisUser⟩ m r m' step

end Course

/-! ## The core along a course -/

namespace Core

variable {s : Core C} {id : ThreadId}

/-- The current thread began its entry. -/
def begun (id : ThreadId) (s : Core C) : Core C := { s with tables := s.tables.begun id }

theorem Recorded.begun (h : Recorded s) : Recorded (s.begun id) := by
  refine ⟨h.sound.begun, h.idle, h.nextId, fun i th' hth' => ?_⟩
  obtain ⟨th, hth, _⟩ := Tables.of_find?_begun hth'
  exact h.known i th hth

theorem Balanced.begun (h : Balanced s) : Balanced (s.begun id) := by
  refine ⟨h.housed.begun, h.ledger.begun, h.capacity, h.alone, fun hup => ?_⟩
  obtain ⟨b, hb, hlives, hne⟩ := h.rooted hup
  exact ⟨b, hb, (Tables.lives_begun b).trans hlives, hne⟩

theorem Manned.begun (h : Manned s) (hc : s.tables.current = some id) : Manned (s.begun id) := by
  refine ⟨⟨⟨fun hroom hdown => ?_, fun hroom hup => (h.accounted.coherent.recorded hroom hup).begun⟩,
    fun hroom => (h.accounted.balanced hroom).begun⟩, fun hroom => (h.attended hroom).begun⟩
  have hnone := (h.accounted.coherent.blank hroom hdown).current
  rw [hc] at hnone
  cases hnone

end Core

theorem Kernel.core_begun (id : ThreadId) (entry : Option (Entry C.Body)) (k : Kernel C) :
    (k.begun id entry).core = k.core.begun id := by
  have hspawns : (k.begun id entry).spawns = k.spawns := by
    match entry with
    | none => rfl
    | some .idleLoop => rfl
    | some (.body _) => rfl
  have hdecisions : (k.begun id entry).decisions = k.decisions := by
    match entry with
    | none => rfl
    | some .idleLoop => rfl
    | some (.body _) => rfl
  unfold core Core.begun
  rw [hspawns, hdecisions]
  rfl

theorem Kernel.spawns_begun (id : ThreadId) (entry : Option (Entry C.Body)) (k : Kernel C) :
    (k.begun id entry).spawns = k.spawns :=
  congrArg Core.spawns (core_begun id entry k)

theorem Kernel.core_aside {events : List (Event C.Note)} {client : C.State}
    (hown : ∀ e ∈ events, e.isAside = true) (k : Kernel C) :
    ({ k with history := events ++ k.history, client } : Kernel C).core = k.core := by
  have hspawns : ({ k with history := events ++ k.history, client } : Kernel C).spawns = k.spawns :=
    (Course.kin_aside hown k).spawns
  have hnone : events.filterMap (·.decision?) = [] := by
    rw [List.filterMap_eq_nil_iff]
    exact fun e he => (Event.of_isAside (hown e he)).2.1
  have hdecisions : ({ k with history := events ++ k.history, client } : Kernel C).decisions
      = k.decisions := by
    show List.filterMap _ (events ++ k.history) = _
    rw [List.filterMap_append, hnone, List.nil_append]
    rfl
  unfold core
  rw [hspawns, hdecisions]

namespace Course

variable {may : Hooks C → Kernel C → Call C.Body → Prop} {P : Core C → Prop}

theorem spawns_le (h : Course may k k') : k.spawns ≤ k'.spawns := by
  have hdurable : Kernel.Durable fun m : Kernel C => k.spawns ≤ m.spawns := {
    kin := fun hkin hm => hkin.spawns ▸ hm
    adopted := fun _ hm => hm
    hired := fun hhires hm => hhires.spawns ▸ Nat.le_succ_of_le hm }
  refine h.lasts hdurable (fun henter hm => ?_) (Nat.le_refl _)
  obtain ⟨id, th, _, _, _, rfl⟩ := Kernel.enter_eq_ok_iff.mp henter
  rw [Kernel.spawns_begun]
  exact hm

/-- The rate of the clock is fixed when the kernel is assembled. -/
theorem frequency_eq (h : Course may k k') : k'.clock.frequency = k.clock.frequency := by
  have hdurable : Kernel.Durable fun m : Kernel C => m.clock.frequency = k.clock.frequency := {
    kin := fun hkin hm => hkin.frequency.trans hm
    adopted := fun _ hm => hm
    hired := fun hhires hm => hhires.frequency.trans hm }
  refine h.lasts hdurable (fun henter hm => ?_) rfl
  obtain ⟨id, th, _, _, _, rfl⟩ := Kernel.enter_eq_ok_iff.mp henter
  exact hm

/-- What every step preserves, an entry that begins among them, holds all along a course in which hooks
only ask and threads leave only in ways that they may. -/
theorem keeps_of_may {stays : Core C → Way → Prop} (hkept : Core.KeptUnder stays P)
    (hbegun : ∀ {s : Core C} {id : ThreadId}, s.tables.current = some id → P s → P (s.begun id))
    (hmay : ∀ hooks k c, may hooks k c →
      hooks.QueryOnly ∧ ∀ way, way.TakenBy c → stays k.core way)
    (h : Course may k k') : P k.core → P k'.core := by
  induction h with
  | refl => exact fun hk => hk
  | trans _ _ hfirst hrest => exact fun hk => hrest (hfirst hk)
  | @aside m _ _ hown =>
    rw [Kernel.core_aside hown m]
    exact fun hk => hk
  | @halt m _ halts =>
    obtain ⟨i, rfl⟩ := Kernel.eq_of_halt halts
    have hcore : ({ m with
        cpu := Maskable.halt m.cpu, history := .halted i :: m.history } : Kernel C).core = m.core :=
      Kernel.core_record (e := .halted i) rfl rfl { m with cpu := Maskable.halt m.cpu }
    exact fun hk => hcore ▸ hk
  | enter enters =>
    obtain ⟨id, th, hc, _, _, rfl⟩ := Kernel.enter_eq_ok_iff.mp enters
    rw [Kernel.core_begun]
    exact hbegun hc
  | call allowed _ _ _ step =>
    obtain ⟨hq, hstays⟩ := hmay _ _ _ allowed
    exact fun hk => hkept.effect_of_may hk hstays (Call.effect hq step)

/-- Calls that leave the scheduler whole: hooks only ask, and the idle thread does not exit. -/
def decent (hooks : Hooks C) (k : Kernel C) (c : Call C.Body) : Prop :=
  hooks.QueryOnly ∧ idleRemains k c

/-- The calls of an orderly run are decent. -/
theorem decent_of_orderly {c : Call C.Body} (hq : hooks.QueryOnly) (h : orderly k c) :
    decent hooks k c := by
  refine ⟨hq, fun hexit => ?_⟩
  rw [hexit] at h
  exact (Bool.not_eq_true' _).mp h

theorem keeps (hkept : Core.Kept P)
    (hbegun : ∀ {s : Core C} {id : ThreadId}, s.tables.current = some id → P s → P (s.begun id))
    (h : Course decent k k') : P k.core → P k'.core :=
  h.keeps_of_may hkept hbegun fun _ _ _ hmay => ⟨hmay.1, fun _ _ => trivial⟩

variable {config : Config} {client : C.State} {k₀ : Kernel C}

theorem manned (h₀ : Kernel.ofConfig config client = .ok k₀) (h : Course decent k₀ k) :
    k.core.Manned :=
  h.keeps_of_may Core.kept_manned (fun hc hs => hs.begun hc)
    (fun _ _ _ hmay => ⟨hmay.1, fun _ htaken hexit => hmay.2 (htaken.exits hexit)⟩)
    (Kernel.manned_of_ofConfig h₀).2

/-- A decent course that started the kernel leaves it able. -/
theorem able (h₀ : Kernel.ofConfig config client = .ok k₀) (h : Course decent k₀ k)
    (hstarted : k.started = true) (hspawns : k.spawns < Word.top)
    (hdecisions : k.decisions.length < Word.top) : k.core.Able := by
  have hcounted : k.core.Counted := h.keeps Core.kept_counted
    (fun _ hs => ⟨hs.stats, hs.counted, hs.carriedOut, hs.outside⟩) (Kernel.manned_of_ofConfig h₀).1
  have hticks : k.core.ticks ≤ Word.top := h.keeps Core.kept_bounded (fun _ hs => hs) (by
    obtain ⟨_, _, rfl⟩ := Kernel.eq_of_ofConfig h₀
    exact Nat.zero_le _)
  exact (h.manned h₀).able hcounted hticks hstarted hspawns hdecisions

end Course
end RoundRobin
