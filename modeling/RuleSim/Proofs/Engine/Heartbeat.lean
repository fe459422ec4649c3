import RuleSim.Proofs.Content.Installed
import RuleSim.Proofs.Engine.Taken
import RuleSim.Proofs.Scheduler.Delivery

namespace RuleSim

open Watchdog (heartbeatEvent)

theorem Event.isHeartbeat_iff (e : Event) : e.isHeartbeat = true ↔ e.type = heartbeatEvent :=
  decide_eq_true_iff

namespace Scheduler

def heartbeats (s : Scheduler) : Multiset Event := s.events.filter (·.isHeartbeat = true)

variable {s t : Scheduler}

theorem heartbeats_add (s : Scheduler) {type : String} (ht : type ≠ heartbeatEvent)
    (time : Binary64) (payload : Payload) (interval : Option Binary64) :
    (s.add type time payload interval).2.heartbeats = s.heartbeats := by
  rw [heartbeats, events_add, Multiset.filter_cons_of_neg]
  · rfl
  · rwa [Event.isHeartbeat_iff]

theorem heartbeats_pop {e : Event} (hp : s.pop? = some (e, t)) (he : e.isHeartbeat = false) :
    t.heartbeats = s.heartbeats := by
  obtain ⟨rest, hev, hev'⟩ := (popped hp).rest
  have hagain : (e.again s.nextSequence).filter (·.isHeartbeat = true) = 0 := by
    rw [Multiset.filter_eq_nil]
    intro f hf
    obtain ⟨interval, -, rfl⟩ := Event.mem_again.mp hf
    exact Bool.eq_false_iff.mp he
  rw [heartbeats, heartbeats, hev, hev', Multiset.filter_add, hagain, Multiset.zero_add,
    Multiset.filter_cons_of_neg _ (by simp [he])]

theorem Sound.heartbeats_cancel (hs : Sound s) (id : Nat) :
    (s.cancel id).2.heartbeats = s.heartbeats.filter (·.id ≠ id) := by
  rw [heartbeats, hs.cancel_events, Multiset.filter_comm]
  rfl

end Scheduler

open Scheduler (heartbeats)

def Watchdog.Tracks (d : Watchdog) (s : Scheduler) : Prop :=
  match d.heartbeat with
  | none => s.heartbeats = 0
  | some id => ∃ f, s.heartbeats = {f} ∧ f.id = id ∧ f.interval = some d.config.interval

namespace Watchdog.Tracks

variable {d d' : Watchdog} {s t : Scheduler}

/-- Only the pending heartbeats matter, and what the supervisor knows of them. -/
theorem congr (h : d.Tracks s) (ht : t.heartbeats = s.heartbeats)
    (hd : d'.heartbeat = d.heartbeat) (hc : d'.config = d.config) : d'.Tracks t := by
  unfold Tracks at h ⊢
  rwa [ht, hd, hc]

theorem of_forgotten (hd : d.heartbeat = none) (ht : t.heartbeats = 0) : d.Tracks t := by
  unfold Tracks
  rwa [hd]

/-- A heartbeat that is taken out comes back under its identifier. -/
theorem pop {e : Event} (h : d.Tracks s) (hp : s.pop? = some (e, t))
    (he : e.isHeartbeat = true) : d.Tracks t := by
  obtain ⟨rest, hev, hev'⟩ := (Scheduler.popped hp).rest
  have hbeats : s.heartbeats = e ::ₘ rest.filter (·.isHeartbeat = true) := by
    rw [heartbeats, hev, Multiset.filter_cons_of_pos _ (by simpa using he)]
  unfold Tracks at h ⊢
  cases hd : d.heartbeat with
  | none =>
      rw [hd, hbeats] at h
      exact absurd h (Multiset.cons_ne_zero)
  | some id =>
      rw [hd, hbeats] at h
      obtain ⟨f, hf, hid, hi⟩ := h
      obtain ⟨rfl, hrest⟩ := (Multiset.singleton_eq_cons_iff _).mp hf.symm
      refine ⟨{ f with time := f.time + d.config.interval, sequence := s.nextSequence }, ?_, hid,
        hi⟩
      rw [heartbeats, hev', Multiset.filter_add, hrest, Multiset.add_zero,
        Event.again_of_recurring hi, Multiset.filter_eq_self]
      intro g hg
      rw [Multiset.mem_singleton] at hg
      subst g
      exact he

/-- A pending heartbeat is the one that the supervisor knows. -/
theorem known (h : d.Tracks s) {f : Event} (hf : f ∈ s.heartbeats) : d.heartbeat = some f.id := by
  unfold Tracks at h
  cases hd : d.heartbeat with
  | none =>
      rw [hd] at h
      rw [h] at hf
      exact absurd hf (Multiset.notMem_zero f)
  | some id =>
      rw [hd] at h
      obtain ⟨g, hg, rfl, -⟩ := h
      rw [hg, Multiset.mem_singleton] at hf
      rw [hf]

theorem cancel {id : Nat} (h : d.Tracks s) (hs : s.Sound) (hd : d.heartbeat ≠ some id) :
    d.Tracks (s.cancel id).2 := by
  refine h.congr ?_ rfl rfl
  rw [hs.heartbeats_cancel, Multiset.filter_eq_self]
  exact fun f hf heq => hd ((h.known hf).trans (congrArg some heq))

theorem disarm (h : d.Tracks s) (hs : s.Sound) : (d.disarm s).2.heartbeats = 0 := by
  rcases d.disarm_cases s with ⟨hd, hdisarm⟩ | ⟨id, hd, hdisarm⟩
  · rw [hdisarm]
    refine Multiset.eq_zero_of_forall_notMem fun f hf => ?_
    cases hd.symm.trans (h.known hf)
  · rw [hdisarm, hs.heartbeats_cancel, Multiset.filter_eq_nil]
    exact fun f hf hne => hne (Option.some.inj ((h.known hf).symm.trans hd))

/-- A supervisor that knows of no heartbeat makes a new one. -/
theorem arm (h : d.Tracks s) (hd : d.heartbeat = none) :
    { d with heartbeat := some s.nextId, unproductive := 0 : Watchdog }.Tracks
      (s.add heartbeatEvent (s.now + Scheduler.delayOf d.config.interval) {}
        (some d.config.interval)).2 := by
  unfold Tracks at h
  rw [hd] at h
  refine ⟨⟨s.nextId, heartbeatEvent, s.now + Scheduler.delayOf d.config.interval, {},
    s.nextSequence, some d.config.interval⟩, ?_, rfl, rfl⟩
  rw [heartbeats, Scheduler.events_add,
    Multiset.filter_cons_of_pos _ (by simp [Event.isHeartbeat])]
  change _ ::ₘ s.heartbeats = _
  rw [h]
  rfl

end Watchdog.Tracks

theorem Execution.Changes.keepsHeartbeats {types : String → Prop} {s t : Stage}
    (h : Changes types s t) (hs : s.scheduler.Sound)
    (ht : ∀ type, types type → type ≠ heartbeatEvent) :
    t.scheduler.Sound ∧ t.scheduler.heartbeats = s.scheduler.heartbeats := by
  induction h with
  | refl => exact ⟨hs, rfl⟩
  | @tail t u _ hc ih =>
      obtain ⟨hsound, hbeats⟩ := ih
      cases hc with
      | world | random | trace => exact ⟨hsound, hbeats⟩
      | @schedule type hty delay payload =>
          exact ⟨hsound.perform (.schedule type delay payload),
            (t.scheduler.heartbeats_add (ht type hty) ..).trans hbeats⟩
      | @recur type hty delay interval payload id scheduler hrec =>
          have hperf := hsound.perform (.scheduleRecurringAfter type delay interval payload)
          simp only [Scheduler.perform, hrec] at hperf
          refine ⟨hperf, Eq.trans ?_ hbeats⟩
          rcases t.scheduler.scheduleRecurringAfter_cases type delay interval payload with
            ⟨-, h⟩ | ⟨-, e, h⟩
          · obtain ⟨rfl, rfl⟩ := Prod.mk.inj (Except.ok.inj (h.symm.trans hrec))
            exact t.scheduler.heartbeats_add (ht type hty) ..
          · cases h.symm.trans hrec

theorem Watchdog.recover_keepsHeartbeats {d : Watchdog} {s : Scheduler} (hs : s.Sound)
    (hd : d.config.recoveryEvent ≠ heartbeatEvent) (t : TraceSink)
    (stalled : List (EntityId × Option EntityId)) :
    (d.recover s t stalled).1.Sound ∧ (d.recover s t stalled).1.heartbeats = s.heartbeats := by
  induction stalled generalizing s t with
  | nil => exact ⟨hs, rfl⟩
  | cons p rest ih =>
      have hnext := hs.perform (.schedule d.config.recoveryEvent d.config.recoveryDelay
        { source := some p.1, target := p.2 })
      obtain ⟨hsound, hbeats⟩ :=
        ih hnext (t.record (.recoveryScheduled d.config.recoveryEvent p.1 p.2))
      exact ⟨hsound, hbeats.trans (s.heartbeats_add hd ..)⟩

def RuleSet.Unreserved (s : RuleSet) : Prop :=
  ∀ event, ∀ rule ∈ s.rulesFor event, heartbeatEvent ∉ Execution.eventTypesOf rule.decl.actions

def Module.Unreserved (m : Module) : Prop :=
  ∀ rule ∈ m.rules, heartbeatEvent ∉ Execution.eventTypesOf rule.actions

namespace Engine

inductive Request where
  | install (m : Module)
  | merge (m : Module) (options : MergeOptions)
  | spawnAll (ds : List EntityDecl)
  | schedule (type : String) (delay : Binary64) (payload : Payload)
  | cancel (id : Nat)
  | arm
  | disarm
  | setWatchdog (d : Watchdog)
  | modifyWorld (f : World → World)
  | setTracing (on : Bool)
  | step
  | process (event : Event)
  | reset
  | clear

def perform (e : Engine) : Request → Engine
  | .install m => final (Engine.install m) e
  | .merge m options => final (Engine.merge m options) e
  | .spawnAll ds => final (Engine.spawnAll ds) e
  | .schedule type delay payload => (e.schedule type delay payload).2
  | .cancel id => (e.cancel id).2
  | .arm =>
    match e.armWatchdog with
    | .ok e => e
    | .error _ => e
  | .disarm => e.disarmWatchdog
  | .setWatchdog d => e.setWatchdog d
  | .modifyWorld f => e.modifyWorld f
  | .setTracing on => e.setTracing on
  | .step => e.step.2
  | .process event => (e.process event).2
  | .reset => e.reset
  | .clear => e.clear

/-- Neither the host nor a rule nor a recovery uses the reserved type, and a supervisor comes
without a heartbeat. -/
def Request.Unreserved : Request → Prop
  | .install m | .merge m _ => m.Unreserved
  | .schedule type _ _ => type ≠ heartbeatEvent
  | .setWatchdog d => d.config.recoveryEvent ≠ heartbeatEvent ∧ d.heartbeat = none
  | _ => True

inductive Reachable : Engine → Prop
  | new (seed : UInt64) (limits : ExecutionLimits) (config : WatchdogConfig)
      (h : config.recoveryEvent ≠ heartbeatEvent) : Reachable (new seed limits config)
  | request {e} (r : Request) (h : r.Unreserved) : Reachable e → Reachable (e.perform r)

structure Coherent (e : Engine) : Prop where
  scheduler : e.scheduler.Sound
  tracks : e.watchdog.Tracks e.scheduler
  recovery : e.watchdog.config.recoveryEvent ≠ heartbeatEvent
  rules : e.rules.Unreserved

variable {e e' : Engine}

theorem Coherent.disarm (h : Coherent e) : Coherent e.disarmWatchdog := by
  have hsound : (e.watchdog.disarm e.scheduler).2.Sound := by
    rcases e.watchdog.disarm_cases e.scheduler with ⟨-, hd⟩ | ⟨id, -, hd⟩
    · rw [hd]
      exact h.scheduler
    · rw [hd]
      exact h.scheduler.cancel id
  rw [disarmWatchdog_eq]
  exact ⟨hsound, .of_forgotten rfl (h.tracks.disarm h.scheduler), h.recovery, h.rules⟩

theorem Coherent.take {event : Event} (h : Coherent e) (ht : e.take? = some (event, e')) :
    Coherent e' := by
  obtain ⟨scheduler, hp, rfl⟩ := take?_eq_some ht
  refine ⟨h.scheduler.pop hp, ?_, h.recovery, h.rules⟩
  cases hb : event.isHeartbeat with
  | true => exact h.tracks.pop hp hb
  | false => exact h.tracks.congr (Scheduler.heartbeats_pop hp hb) rfl rfl

theorem Coherent.heartbeat (h : Coherent e) : Coherent e.heartbeat := by
  rcases e.heartbeat_cases with ⟨-, hb⟩ | ⟨-, -, hb⟩ | ⟨-, hb⟩
  · rwa [hb]
  · rw [hb]
    exact h.disarm
  · rw [hb]
    obtain ⟨hsound, hbeats⟩ := Watchdog.recover_keepsHeartbeats
      (d := { e.watchdog with unproductive := e.watchdog.unproductive + 1 }) h.scheduler h.recovery
      e.trace (e.watchdog.heuristic e.world)
    exact ⟨hsound, h.tracks.congr hbeats rfl rfl, h.recovery, h.rules⟩

theorem Coherent.process (h : Coherent e) (event : Event) : Coherent (e.process event).2 := by
  have hchanges : Execution.Changes (· ≠ heartbeatEvent) e.toStage (e.process event).2.toStage :=
    Execution.runEvent_changes e.rules e.limits event e.toStage
      fun rule hr t ht heq => h.rules event.type rule hr (heq ▸ ht)
  obtain ⟨hsound, hbeats⟩ := hchanges.keepsHeartbeats h.scheduler fun _ ht => ht
  exact ⟨hsound, h.tracks.congr hbeats rfl rfl, h.recovery, h.rules⟩

theorem Coherent.handle (h : Coherent e) (event : Event) : Coherent (e.handle event).2 := by
  have hp := h.process event
  rw [handle_snd]
  exact ⟨hp.scheduler, hp.tracks.congr rfl rfl rfl, hp.recovery, hp.rules⟩

theorem Stepped.coherent {more : Nat} {log : List Event} (hs : Stepped e more log e') :
    Coherent e → Coherent e' :=
  hs.along (R := fun e _ f => Coherent e → Coherent f) (fun _ => id) (fun h h' => h' ∘ h)
    (fun ht h => h.take ht) (fun _ h => h.heartbeat) fun _ event h => h.handle event

theorem Coherent.cancel (h : Coherent e) (id : Nat) : Coherent (e.cancel id).2 := by
  rcases e.cancel_cases id with ⟨-, hc⟩ | ⟨hne, hc⟩
  · rw [hc]
    exact h.disarm
  · rw [hc]
    exact ⟨h.scheduler.cancel id, h.tracks.cancel h.scheduler hne, h.recovery, h.rules⟩

theorem Coherent.arm (h : Coherent e) : Coherent (e.perform .arm) := by
  rw [Engine.perform]
  rcases e.armWatchdog_cases with ⟨-, ha⟩ | ⟨hnone, hactive, ha⟩
  · rw [ha]
    exact h
  · rw [ha]
    refine ⟨h.scheduler.add heartbeatEvent {} (.after _) ?_, h.tracks.arm hnone, h.recovery,
      h.rules⟩
    simpa using WatchdogConfig.validInterval hactive

theorem Coherent.reset (h : Coherent e) : Coherent e.reset :=
  ⟨Scheduler.empty_sound, .of_forgotten rfl rfl, h.recovery, h.rules⟩

theorem Coherent.onContent {α : Type} (h : Coherent e) {x : EStateM Error Content α}
    (hx : (final x ⟨e.world, e.rules⟩).rules.Unreserved) : Coherent (final (onContent x) e) := by
  rw [final_onContent]
  exact ⟨h.scheduler, h.tracks, h.recovery, hx⟩

theorem Coherent.install {m : Module} (h : Coherent e) (hm : m.Unreserved) :
    Coherent (final (Engine.install m) e) := by
  refine h.onContent fun event rule hr => ?_
  rw [Content.final_install] at hr
  rcases RuleSet.rulesFor_withModule hr with hd | hr
  · exact hm _ hd
  · exact h.rules event rule hr

theorem Coherent.merge {m : Module} (h : Coherent e) (hm : m.Unreserved)
    (options : MergeOptions) : Coherent (final (Engine.merge m options) e) := by
  refine h.onContent fun event rule hr => ?_
  rcases Content.rulesFor_merge hr with ⟨offset, d, hd, hr⟩ | hr
  · rw [hr]
    exact hm d hd
  · exact h.rules event rule hr

theorem Coherent.spawnAll (h : Coherent e) (ds : List EntityDecl) :
    Coherent (final (Engine.spawnAll ds) e) := by
  refine h.onContent ?_
  rw [Content.final_onWorld]
  exact h.rules

theorem Coherent.perform {r : Request} (h : Coherent e) (hr : r.Unreserved) :
    Coherent (e.perform r) := by
  cases r with
  | install m => exact h.install hr
  | merge m options => exact h.merge hr options
  | spawnAll ds => exact h.spawnAll ds
  | schedule type delay payload =>
      exact ⟨h.scheduler.perform (.schedule type delay payload),
        h.tracks.congr (e.scheduler.heartbeats_add hr ..) rfl rfl, h.recovery, h.rules⟩
  | cancel id => exact h.cancel id
  | arm => exact h.arm
  | disarm => exact h.disarm
  | setWatchdog d =>
      have hd := h.disarm
      exact ⟨hd.scheduler, .of_forgotten hr.2 (h.tracks.disarm h.scheduler), hr.1, hd.rules⟩
  | modifyWorld | setTracing => exact ⟨h.scheduler, h.tracks, h.recovery, h.rules⟩
  | step => exact e.step_stepped.coherent h
  | process event => exact h.process event
  | reset => exact h.reset
  | clear =>
      exact ⟨h.reset.scheduler, h.reset.tracks, h.recovery,
        fun _ _ hr => absurd hr List.not_mem_nil⟩

theorem Reachable.coherent (hr : Reachable e) : Coherent e := by
  induction hr with
  | new seed limits config h =>
      exact ⟨Scheduler.empty_sound, .of_forgotten rfl rfl, h,
        fun _ _ hr => absurd hr List.not_mem_nil⟩
  | request r h _ ih => exact ih.perform h

/-- The supervisor and the queue agree: the supervisor holds an identifier just if there is one
pending event of its type, and then the event has that identifier and the interval of the
supervisor. -/
theorem heartbeat_pending {e : Engine} (hr : Reachable e) :
    (∀ id, e.watchdog.heartbeat = some id → ∃ f, e.scheduler.heartbeats = {f} ∧ f.id = id) ∧
      (∀ f, e.scheduler.heartbeats = {f} → e.watchdog.heartbeat = some f.id ∧
        f.interval = some e.watchdog.config.interval) ∧
      (e.watchdog.heartbeat = none ↔ e.scheduler.heartbeats = 0) := by
  have ht := hr.coherent.tracks
  unfold Watchdog.Tracks at ht
  cases hb : e.watchdog.heartbeat with
  | none =>
      rw [hb] at ht
      refine ⟨nofun, fun f hf => ?_, iff_of_true rfl ht⟩
      exact absurd (ht.symm.trans hf) (Multiset.singleton_ne_zero f).symm
  | some id =>
      rw [hb] at ht
      obtain ⟨f, hf, hid, hi⟩ := ht
      refine ⟨fun k hk => ⟨f, hf, hid.trans (Option.some.inj hk)⟩, fun g hg => ?_, ?_⟩
      · obtain rfl := Multiset.singleton_inj.mp (hf.symm.trans hg)
        exact ⟨by rw [hid], hi⟩
      · refine iff_of_false nofun fun h0 => ?_
        exact Multiset.singleton_ne_zero f (hf.symm.trans h0)

theorem armed_heartbeat_pending :
    Reachable ((new 0 {} {}).perform .arm) ∧
      ((new 0 {} {}).perform .arm).watchdog.heartbeat = some 0 ∧
      ∃ f, ((new 0 {} {}).perform .arm).scheduler.heartbeats = {f} ∧ f.id = 0 := by
  have hr : Reachable ((new 0 {} {}).perform .arm) :=
    .request .arm trivial (.new 0 {} {} (by decide))
  have hb : ((new 0 {} {}).perform .arm).watchdog.heartbeat = some 0 := by decide +kernel
  exact ⟨hr, hb, (heartbeat_pending hr).1 0 hb⟩

end Engine

end RuleSim
