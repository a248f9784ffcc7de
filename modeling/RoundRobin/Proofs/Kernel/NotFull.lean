import RoundRobin.Proofs.Kernel.Effect

/-!
# The queue is not found full

A push stops the machine when the ready queue is full, and nothing else stops it with that fault. So an
operation is safe from it when there is room at each of its pushes, whatever else may stop it.
-/

namespace RoundRobin

open Act

variable {C : Client} {hooks : Hooks C} {k k' : Kernel C} {α γ : Type}

/-! ## Sections -/

/-- The section does not find the queue full. -/
def Fault.NotFull (x : Except Fault α) : Prop := x ≠ .error .readyQueueFull

namespace Fault

theorem NotFull.bind {x : Except Fault α} {f : α → Except Fault γ} (hx : NotFull x)
    (hf : ∀ a, x = .ok a → NotFull (f a)) : NotFull (x >>= f) := by
  cases x with
  | error e => exact fun h => hx (congrArg Except.error (Except.error.inj h))
  | ok a => exact hf a rfl

theorem notFull_pure (a : α) : NotFull (pure a : Except Fault α) := nofun

theorem notFull_checkedAdd (m n : Nat) : NotFull (checkedAdd m n) := by
  unfold checkedAdd
  split
  · exact nofun
  · exact nofun

end Fault

open Fault

namespace Tables

variable {β : Type} {t : Tables β} {id : ThreadId}

theorem notFull_thread : NotFull (t.thread id) := by
  unfold thread
  split
  · exact nofun
  · exact nofun

theorem notFull_currentId : NotFull t.currentId := by
  unfold currentId
  split
  · exact nofun
  · exact nofun

/-- A push of a queue that has room. -/
theorem notFull_pushReady (hroom : t.ready.ids.length < t.ready.capacity) :
    NotFull (t.pushReady id) := by
  unfold pushReady ReadyQueue.push
  rw [if_pos hroom]
  exact notFull_pure _

theorem notFull_unblock (hroom : t.ready.ids.length < t.ready.capacity) : NotFull (t.unblock id) := by
  unfold unblock
  refine notFull_thread.bind fun th _ => ?_
  split
  · exact nofun
  split
  · exact nofun
  split
  · exact nofun
  unfold makeReady
  refine notFull_thread.bind fun th _ => ?_
  split
  · exact nofun
  split
  · exact notFull_pure _
  · exact notFull_pushReady hroom

theorem notFull_requeueCurrent (hroom : t.ready.ids.length < t.ready.capacity) :
    NotFull t.requeueCurrent := by
  unfold requeueCurrent
  refine notFull_currentId.bind fun id _ => ?_
  split
  · exact notFull_pure _
  · exact notFull_thread.bind fun _ _ => notFull_pushReady hroom

theorem notFull_fallAsleep {wakeTick : Nat} : NotFull (t.fallAsleep wakeTick) := by
  unfold fallAsleep
  refine notFull_currentId.bind fun id _ => ?_
  split
  · exact nofun
  refine notFull_thread.bind fun _ _ => NotFull.bind ?_ fun _ _ => notFull_pure _
  unfold SleepRegistry.register
  split
  · exact nofun
  · exact nofun

/-! Decisions only take threads out of the queue. -/

theorem notFull_reapOne : NotFull (reapOne id t) := by
  unfold reapOne
  split
  · exact nofun
  split
  · exact nofun
  split
  · exact nofun
  · refine NotFull.bind ?_ fun _ _ => notFull_pure _
    unfold PagePool.giveBack
    split
    · exact nofun
    · exact nofun

theorem notFull_reapAll {ids : List ThreadId} : NotFull (reapAll ids t) := by
  induction ids generalizing t with
  | nil => exact nofun
  | cons id rest ih => exact notFull_reapOne.bind fun _ _ => ih

theorem notFull_takeNext : NotFull t.takeNext := by
  unfold takeNext
  split
  · exact nofun
  split
  · exact nofun
  · exact nofun

theorem notFull_retire : NotFull (t.retire id) := by
  unfold retire
  refine notFull_thread.bind fun th _ => ?_
  split
  · exact notFull_pure _
  · exact notFull_pure _

theorem notFull_dispatch : NotFull t.dispatch := by
  unfold dispatch
  refine notFull_currentId.bind fun previous _ => notFull_takeNext.bind fun ⟨next, u⟩ _ =>
    notFull_thread.bind fun outgoing _ => ?_
  split
  · exact nofun
  refine notFull_thread.bind fun incoming _ => ?_
  split
  · exact nofun
  dsimp only
  split
  · exact notFull_pure _
  · exact notFull_retire.bind fun _ _ => NotFull.bind
      ((notFull_checkedAdd _ _).bind fun _ _ => notFull_pure _) fun _ _ => notFull_pure _

theorem notFull_giveUp {status : Status} : NotFull (t.giveUp status) := by
  unfold giveUp
  refine notFull_currentId.bind fun id _ => notFull_thread.bind fun th _ => ?_
  split
  · exact nofun
  · exact NotFull.bind notFull_reapAll fun _ _ => notFull_dispatch

theorem notFull_charge {kind : TickKind} {timeSlice : Nat} : NotFull (t.charge kind timeSlice) := by
  unfold charge
  refine NotFull.bind ?_ fun stats _ => ?_
  · unfold TickStats.charge
    split
    all_goals exact (notFull_checkedAdd _ _).bind fun _ _ => notFull_pure _
  · split
    · exact nofun
    · exact notFull_pure _

end Tables

/-! ## Operations -/

namespace Act

/-- The operation does not find the queue full. -/
def NotFull (act : Act C α) (k : Kernel C) : Prop := ∀ k', act k ≠ .error .readyQueueFull k'

variable {act : Act C α} {f : α → Act C γ} {a : α} {e : Fault}

theorem NotFull.bind (h : act.NotFull k) (hf : ∀ a k', act k = .ok a k' → (f a).NotFull k') :
    (act >>= f).NotFull k := by
  intro k' hstop
  cases hact : act k with
  | ok a k₁ =>
    rw [bind_of_ok hact] at hstop
    exact hf a k₁ hact k' hstop
  | error e k₁ =>
    rw [bind_of_error hact] at hstop
    cases hstop
    exact h _ hact

/-- After a step that comes back only the rest matters. -/
theorem NotFull.after (hact : act k = .ok a k') (h : (f a).NotFull k') : (act >>= f).NotFull k := by
  unfold NotFull
  rw [bind_of_ok hact]
  exact h

theorem notFull_of_ok (h : act k = .ok a k') : act.NotFull k := by
  intro k₁ hstop
  rw [h] at hstop
  cases hstop

theorem notFull_pure (a : α) : (pure a : Act C α).NotFull k := notFull_of_ok rfl

theorem notFull_throw (he : e ≠ .readyQueueFull) : (throw e : Act C α).NotFull k := by
  intro k' hstop
  cases hstop
  exact he rfl

theorem notFull_orFault {r : Except Fault α} (h : Fault.NotFull r) : (orFault r).NotFull k := by
  cases r with
  | ok a => exact notFull_pure a
  | error e => exact notFull_throw fun he => h (congrArg _ he)

theorem notFull_update {g : Tables C.Body → Except Fault (α × Tables C.Body)}
    (h : Fault.NotFull (g k.tables)) : (update g).NotFull k := by
  cases hg : g k.tables with
  | ok r => exact notFull_of_ok (update_of_ok hg)
  | error e =>
    intro k' hstop
    rw [update_of_error hg] at hstop
    cases hstop
    exact h hg

theorem notFull_change {g : Tables C.Body → Except Fault (Tables C.Body)}
    (h : Fault.NotFull (g k.tables)) : (change g).NotFull k := by
  refine notFull_update ?_
  cases hg : g k.tables with
  | ok t => exact nofun
  | error e =>
    intro hstop
    cases hstop
    exact h hg

/-- A section that cannot fail. -/
theorem notFull_change_ok (g : Tables C.Body → Tables C.Body) :
    (change fun t => .ok (g t)).NotFull k :=
  notFull_of_ok (a := ()) (change_eq_ok_iff.mpr ⟨g k.tables, rfl, rfl⟩)

theorem NotFull.masked (h : act.NotFull { k with cpu := Maskable.setLevel .off k.cpu }) :
    (masked act).NotFull k :=
  NotFull.after (level_apply k) (NotFull.after (setLevel_apply .off k)
    (h.bind fun _ k₁ _ => NotFull.after (setLevel_apply _ k₁) (notFull_pure _)))

/-- A check stops with a fault of its own, or it does nothing. -/
theorem NotFull.check {check : Act C Unit} {p : Prop} [Decidable p]
    (hcheck : check k = if p then .error e k else .ok () k) (he : e ≠ .readyQueueFull)
    {f : Unit → Act C γ} (h : (f ()).NotFull k) : (check >>= f).NotFull k := by
  refine NotFull.bind ?_ fun _ k₁ hok => ?_
  · intro k₁ hstop
    rw [hcheck] at hstop
    split at hstop
    · cases hstop
      exact he rfl
    · cases hstop
  · rw [hcheck] at hok
    split at hok
    · cases hok
    · cases hok
      exact h

theorem notFull_switchContext : (switchContext : Act C Unit).NotFull k := by
  have hswitch : Fault.NotFull k.cpu.switch := by
    unfold FlagCpu.switch
    split
    · exact nofun
    split
    · exact nofun
    · exact nofun
  intro k' hstop
  unfold switchContext at hstop
  cases hs : k.cpu.switch with
  | ok cpu =>
    rw [hs] at hstop
    cases hstop
  | error e =>
    rw [hs] at hstop
    cases hstop
    exact hswitch hs

end Act

/-- No hook stops the machine in the queue's name. -/
structure Hooks.NeverFull (hooks : Hooks C) : Prop where
  activate : ∀ id k, (hooks.activate id).NotFull k
  exit : ∀ id k, (hooks.exit id).NotFull k
  isUser : ∀ id k, (hooks.isUser id).NotFull k

theorem Hooks.neverFull_plain : (plain : Hooks C).NeverFull :=
  ⟨fun _ _ => notFull_pure (), fun _ _ => notFull_pure (), fun _ _ => notFull_pure false⟩

theorem Hooks.notFull_call {point : HookPoint} {id : ThreadId} {absent : α} {act : Act C α}
    (h : ∀ k, act.NotFull k) : (call point id absent act).NotFull k := by
  unfold call
  refine NotFull.after rfl ?_
  split
  · exact NotFull.after (level_apply k) (NotFull.after (record_apply _ k) (h _))
  · exact Act.notFull_pure absent

/-- There is room at the pushes of a call: in the queue as it is, during a wake, and after a tick. -/
structure Kernel.Roomy (k : Kernel C) : Prop where
  queue : k.tables.ready.ids.length < k.tables.ready.capacity
  wake : ∀ now, Fault.NotFull (k.tables.wakeDue now)
  ticked : ∀ s, Core.Ticked k.core s → s.tables.ready.ids.length < s.tables.ready.capacity

namespace Kernel

theorem notFull_giveUpCpu {status : Status} (hf : hooks.NeverFull) :
    (giveUpCpu hooks status).NotFull k := by
  unfold giveUpCpu
  refine NotFull.check (requireMasked_apply _ k) (by decide) ?_
  refine (notFull_update Tables.notFull_giveUp).bind fun d k₁ _ => ?_
  refine NotFull.after (level_apply k₁) (NotFull.after (record_apply _ k₁) ?_)
  refine (Hooks.notFull_call (hf.activate d.next)).bind fun _ _ _ => ?_
  split
  · exact notFull_switchContext
  · exact Act.notFull_pure ()

theorem notFull_block (hf : hooks.NeverFull) : (block hooks).NotFull k := by
  unfold block
  refine NotFull.check (requireThreadContext_apply _ k) (by decide) ?_
  exact NotFull.check (requireMasked_apply _ k) (by decide) (notFull_giveUpCpu hf)

theorem notFull_yieldNow (hf : hooks.NeverFull)
    (hroom : k.tables.ready.ids.length < k.tables.ready.capacity) : (yieldNow hooks).NotFull k := by
  unfold yieldNow
  refine NotFull.check (requireThreadContext_apply _ k) (by decide) (NotFull.masked ?_)
  exact NotFull.bind (notFull_change (Tables.notFull_requeueCurrent hroom)) fun _ _ _ =>
    notFull_giveUpCpu hf

theorem notFull_sleepUntil {wakeTick : Nat} (hf : hooks.NeverFull) :
    (sleepUntil hooks wakeTick).NotFull k := by
  unfold sleepUntil
  refine NotFull.check (requireThreadContext_apply _ k) (by decide) (NotFull.masked ?_)
  exact (notFull_change Tables.notFull_fallAsleep).bind fun _ _ _ => notFull_giveUpCpu hf

theorem notFull_exit (hf : hooks.NeverFull) : (exit hooks).NotFull k := by
  unfold exit
  refine NotFull.check (requireThreadContext_apply _ k) (by decide) ?_
  refine NotFull.bind (notFull_orFault Tables.notFull_currentId) fun id k₁ _ => ?_
  refine NotFull.after (record_apply _ k₁) ?_
  refine (Hooks.notFull_call (hf.exit id)).bind fun _ k₂ _ => ?_
  exact NotFull.after (setLevel_apply .off k₂) (notFull_giveUpCpu hf)

theorem notFull_sleep {n : Nat} (hf : hooks.NeverFull) : (sleep hooks n).NotFull k := by
  unfold sleep
  refine NotFull.after rfl ?_
  exact NotFull.check (requireUnmasked_apply _ k) (by decide) (notFull_sleepUntil hf)

theorem notFull_realTimeSleep {num denom : Nat} (hf : hooks.NeverFull) :
    (realTimeSleep hooks num denom).NotFull k := by
  unfold realTimeSleep
  refine NotFull.after rfl (NotFull.bind (notFull_orFault ?_) fun ticks k₁ _ => ?_)
  · unfold Clock.toTicks
    split
    · exact nofun
    · exact nofun
  · refine NotFull.check (requireUnmasked_apply _ k₁) (by decide) ?_
    split
    · exact notFull_sleep hf
    · refine NotFull.bind (notFull_orFault ?_) fun _ k₂ _ => notFull_of_ok (record_apply _ k₂)
      unfold Delay.subTickLoops
      split
      · exact nofun
      split
      · exact nofun
      · exact nofun

/-! Making threads -/

theorem notFull_takePage : (takePage : Act C (Option Page)).NotFull k := by
  unfold takePage
  refine NotFull.masked (NotFull.after rfl ?_)
  split
  · exact Act.notFull_pure none
  · exact (notFull_change_ok _).bind fun _ _ _ => Act.notFull_pure _

theorem notFull_spawn {name : String} {priority : Nat} {entry : Entry C.Body} :
    (spawn name priority entry).NotFull k := by
  unfold spawn
  refine NotFull.after rfl ?_
  split
  · refine notFull_takePage.bind fun page k₁ _ => ?_
    cases page with
    | none => exact Act.notFull_pure _
    | some page =>
      exact NotFull.after rfl
        (NotFull.bind (NotFull.masked (notFull_change_ok _)) fun _ _ _ => Act.notFull_pure _)
  · exact Act.notFull_pure _

theorem notFull_unblock {id : ThreadId}
    (hroom : k.tables.ready.ids.length < k.tables.ready.capacity) : (unblock id).NotFull k :=
  NotFull.masked (notFull_change (Tables.notFull_unblock hroom))

/-- A new thread is queued as if it had been there before. -/
theorem notFull_create {name : String} {priority : Nat} {body : C.Body}
    (hroom : k.tables.ready.ids.length < k.tables.ready.capacity) :
    (create name priority body).NotFull k := by
  unfold create
  split
  · exact Act.notFull_pure _
  · refine notFull_spawn.bind fun r k₁ hspawn => ?_
    rcases core_of_spawn hspawn with ⟨e, rfl, _⟩ | ⟨page, pool, rfl, _, _, hcore⟩
    · exact Act.notFull_pure _
    · have hready : k₁.tables.ready = k.tables.ready := congrArg (·.tables.ready) hcore
      refine (notFull_unblock (hready ▸ hroom)).bind fun _ k₂ _ => ?_
      exact NotFull.after (record_apply _ k₂) (Act.notFull_pure _)

theorem notFull_init : (init : Act C (Except BringUpError Unit)).NotFull k := by
  unfold init
  refine NotFull.check (requireMasked_apply _ k) (by decide) (NotFull.after rfl ?_)
  split
  · exact Act.notFull_pure _
  · refine NotFull.after rfl ?_
    refine NotFull.after rfl ?_
    refine (notFull_change_ok _).bind fun _ k₁ _ => NotFull.after rfl ?_
    exact NotFull.after (record_apply _ k₁) (Act.notFull_pure _)

theorem notFull_start : (start : Act C (Except Error Unit)).NotFull k := by
  unfold start
  refine NotFull.after rfl ?_
  split
  · exact Act.notFull_pure _
  split
  · exact Act.notFull_pure _
  · refine NotFull.after rfl (notFull_spawn.bind fun r k₁ _ => ?_)
    cases r with
    | error e => exact NotFull.after rfl (Act.notFull_pure _)
    | ok id =>
      refine NotFull.bind (NotFull.masked (notFull_change_ok _)) fun _ k₂ _ => ?_
      refine NotFull.after (record_apply _ k₂) (NotFull.after (setLevel_apply .on _) ?_)
      exact Act.notFull_pure _

theorem notFull_setPriority {priority : Nat} : (setPriority priority : Act C Unit).NotFull k :=
  NotFull.masked (notFull_change (Tables.notFull_currentId.bind fun _ _ =>
    Tables.notFull_thread.bind fun _ _ => Fault.notFull_pure _))

/-! The timer -/

theorem notFull_advanceClock : (advanceClock : Act C Nat).NotFull k := by
  unfold advanceClock
  refine NotFull.after rfl (NotFull.bind (notFull_orFault ?_) fun clock k₁ _ => ?_)
  · unfold Clock.advance
    split
    · exact nofun
    · exact nofun
  · exact NotFull.after rfl (Act.notFull_pure _)

theorem notFull_tickThreads {now : Nat} (hf : hooks.NeverFull)
    (hwake : Fault.NotFull (k.tables.wakeDue now)) : (tickThreads hooks now).NotFull k := by
  unfold tickThreads
  refine NotFull.after rfl ?_
  split
  · refine NotFull.bind ?_ fun ⟨id, idle, woken⟩ k₁ _ => ?_
    · unfold wakeSleepers
      refine (notFull_update hwake).bind fun _ k₁ _ => ?_
      refine NotFull.bind (notFull_orFault Tables.notFull_currentId) fun _ k₂ _ => ?_
      exact NotFull.after rfl (Act.notFull_pure _)
    · refine NotFull.bind ?_ fun kind k₂ _ => ?_
      · unfold tickKind
        split
        · exact Act.notFull_pure _
        · refine (Hooks.notFull_call (hf.isUser id)).bind fun user k₂ _ => ?_
          split
          · exact Act.notFull_pure _
          · exact Act.notFull_pure _
      · refine NotFull.after rfl ((notFull_update Tables.notFull_charge).bind fun expired k₃ _ => ?_)
        split
        · exact notFull_of_ok rfl
        · exact Act.notFull_pure _
  · exact Act.notFull_pure _

theorem notFull_timerInterrupt (hf : hooks.NeverFull) (hk : k.Roomy) :
    (timerInterrupt hooks).NotFull k := by
  unfold timerInterrupt
  refine NotFull.check (requireMasked_apply _ k) (by decide) ?_
  refine NotFull.check (requireThreadContext_apply _ k) (by decide) ?_
  refine NotFull.after rfl ?_
  refine notFull_advanceClock.bind fun now k₁ hadvance => ?_
  obtain ⟨_, _, hk₁⟩ := eq_of_advanceClock hadvance
  have htables : k₁.tables = k.tables := by rw [hk₁]
  exact (notFull_tickThreads hf (htables ▸ hk.wake now)).bind fun _ k₂ _ => notFull_of_ok rfl

theorem notFull_onTimerInterrupt (hq : hooks.QueryOnly) (hf : hooks.NeverFull) (hk : k.Roomy) :
    (onTimerInterrupt hooks).NotFull k := by
  unfold onTimerInterrupt
  refine (notFull_timerInterrupt hf hk).bind fun _ k₁ htimer => NotFull.after rfl ?_
  obtain ⟨_, _, hticked⟩ := core_of_timerInterrupt hq htimer
  split
  · refine NotFull.after rfl ?_
    exact notFull_yieldNow hf (hk.ticked k₁.core hticked)
  · exact Act.notFull_pure _

end Kernel

/-- No call finds the queue full where there is room at all of its pushes. -/
theorem Call.notFull (hq : hooks.QueryOnly) (hf : hooks.NeverFull) (hk : k.Roomy)
    (c : Call C.Body) : (c.perform hooks).NotFull k := by
  -- a call only puts the result of its operation into another form
  have hform {τ : Type} {act : Act C τ} (g : τ → Reply) (h : act.NotFull k) :
      (act >>= fun a => pure (g a)).NotFull k := h.bind fun _ _ _ => Act.notFull_pure _
  cases c with
  | init => exact hform _ Kernel.notFull_init
  | start => exact hform _ Kernel.notFull_start
  | create => exact hform _ (Kernel.notFull_create hk.queue)
  | unblock => exact hform _ (Kernel.notFull_unblock hk.queue)
  | block => exact hform _ (Kernel.notFull_block hf)
  | yieldNow => exact hform _ (Kernel.notFull_yieldNow hf hk.queue)
  | exit => exact hform _ (Kernel.notFull_exit hf)
  | sleepUntil => exact hform _ (Kernel.notFull_sleepUntil hf)
  | sleep => exact hform _ (Kernel.notFull_sleep hf)
  | timerInterrupt => exact hform _ (Kernel.notFull_timerInterrupt hf hk)
  | onTimerInterrupt => exact hform _ (Kernel.notFull_onTimerInterrupt hq hf hk)
  | setPriority => exact hform _ Kernel.notFull_setPriority
  | advanceClock => exact hform _ Kernel.notFull_advanceClock
  | setLevel l => exact notFull_of_ok (a := .level (Maskable.level k.cpu)) rfl
  | setLoopsPerTick => exact hform _ (notFull_of_ok rfl)
  | dumpStats => exact hform _ (notFull_of_ok rfl)
  | timerStats => exact hform _ (notFull_of_ok rfl)
  | installHooks => exact hform _ (notFull_of_ok rfl)
  | _ => exact hform _ (Kernel.notFull_realTimeSleep hf)

end RoundRobin
