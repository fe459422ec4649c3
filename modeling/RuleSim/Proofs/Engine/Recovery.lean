import RuleSim.Proofs.Engine.Kept
import RuleSim.Proofs.Engine.Queue

namespace RuleSim

open Watchdog (heartbeatEvent)

namespace Watchdog

theorem recover_nextId (d : Watchdog) (s : Scheduler) (t : TraceSink)
    (stalled : List (EntityId × Option EntityId)) :
    (d.recover s t stalled).1.nextId = s.nextId + stalled.length := by
  induction stalled generalizing s t with
  | nil => rfl
  | cons p rest ih =>
      refine (ih _ _).trans ?_
      change s.nextId + 1 + rest.length = s.nextId + (rest.length + 1)
      omega

theorem disarm_nextId (d : Watchdog) (s : Scheduler) : (d.disarm s).2.nextId = s.nextId := by
  rcases d.disarm_cases s with ⟨-, h⟩ | ⟨id, -, h⟩
  · rw [h]
  · rw [h]
    rcases s.cancel_cases id with ⟨hc, -⟩ | ⟨f, heap, hc, -⟩
    · rw [hc]
    · rw [hc]

end Watchdog

namespace Engine

def recovers (e : Engine) : Bool := e.scheduler.nextId < e.heartbeat.scheduler.nextId

theorem heartbeat_recovering {e : Engine} (h : e.Recovering) : e.heartbeat = e.recoverStalled := by
  rcases e.heartbeat_cases with ⟨hp, -⟩ | ⟨-, hn, -⟩ | ⟨-, he⟩
  · cases h.1.symm.trans hp
  · exact absurd h hn
  · exact he

theorem heartbeat_exhausted {e : Engine}
    (hp : e.scheduler.hasPendingExcept heartbeatEvent = false)
    (h : e.watchdog.config.maxUnproductiveRecoveries ≤ e.watchdog.unproductive) :
    e.heartbeat = e.disarmWatchdog := by
  rcases e.heartbeat_cases with ⟨hp', -⟩ | ⟨-, -, he⟩ | ⟨hr, -⟩
  · cases hp.symm.trans hp'
  · exact he
  · exact absurd h (Nat.not_le.mpr hr.2.2)

theorem heartbeat_not_recovering {e : Engine} (h : ¬ e.Recovering) :
    e.heartbeat = e ∨ e.heartbeat = e.disarmWatchdog := by
  rcases e.heartbeat_cases with ⟨-, he⟩ | ⟨-, -, he⟩ | ⟨hr, -⟩
  · exact .inl he
  · exact .inr he
  · exact absurd hr h

theorem disarmWatchdog_count (e : Engine) :
    e.disarmWatchdog.watchdog.unproductive = e.watchdog.unproductive := by
  rw [disarmWatchdog_eq]

/-- Just the heartbeats that recover queue events. -/
theorem recovers_iff (e : Engine) : e.recovers = true ↔ e.Recovering := by
  rw [recovers, decide_eq_true_iff]
  constructor
  · intro hlt
    by_contra h
    rcases heartbeat_not_recovering h with he | he
    · rw [he] at hlt
      exact absurd hlt (Nat.lt_irrefl _)
    · rw [he] at hlt
      exact absurd hlt (Nat.not_lt.mpr (e.watchdog.disarm_nextId e.scheduler).le)
  · intro h
    rw [heartbeat_recovering h, recoverStalled]
    dsimp only
    rw [Watchdog.recover_nextId]
    exact Nat.lt_add_of_pos_right (List.length_pos_iff.mpr h.2.1)

/-- A heartbeat is counted just if it recovers, and that only below the bound. -/
theorem heartbeat_count (e : Engine) : e.heartbeat.watchdog.unproductive =
    e.watchdog.unproductive + if e.recovers then 1 else 0 := by
  by_cases h : e.Recovering
  · rw [if_pos ((recovers_iff e).mpr h), heartbeat_recovering h]
    rfl
  · rw [if_neg (mt (recovers_iff e).mp h)]
    rcases heartbeat_not_recovering h with he | he
    · rw [he, Nat.add_zero]
    · rw [he, Nat.add_zero, disarmWatchdog_count]

structure Bounded (e : Engine) : Prop where
  scheduler : e.scheduler.Sound
  count : e.watchdog.unproductive ≤ e.watchdog.config.maxUnproductiveRecoveries

variable {e e' : Engine}

theorem Bounded.take {event : Event} (h : Bounded e) (ht : e.take? = some (event, e')) :
    Bounded e' := by
  obtain ⟨scheduler, hp, rfl⟩ := take?_eq_some ht
  exact ⟨h.scheduler.pop hp, h.count⟩

theorem Bounded.disarm (h : Bounded e) : Bounded e.disarmWatchdog := by
  refine ⟨(e.watchdog.disarm_queue e.scheduler).sound h.scheduler, ?_⟩
  rw [disarmWatchdog_count, e.disarmWatchdog_keeps.config]
  exact h.count

theorem Bounded.heartbeat (h : Bounded e) : Bounded e.heartbeat := by
  rcases e.heartbeat_cases with ⟨-, he⟩ | ⟨-, -, he⟩ | ⟨hr, he⟩
  · rwa [he]
  · rw [he]
    exact h.disarm
  · rw [he]
    exact ⟨(Watchdog.recover_queue ..).sound h.scheduler, hr.2.2⟩

theorem Bounded.process (h : Bounded e) (event : Event) : Bounded (e.process event).2 :=
  ⟨(e.process_queue event).sound h.scheduler, h.count⟩

theorem Bounded.handle (h : Bounded e) (event : Event) : Bounded (e.handle event).2 := by
  refine ⟨(e.handle_queue event).sound h.scheduler, ?_⟩
  rw [handle_snd]
  dsimp only
  split
  · exact h.count
  · exact Nat.zero_le _

structure Moment where
  event : Event
  engine : Engine

def momentsWith (e : Engine) (more : Nat) : List Moment :=
  match e.take? with
  | none => []
  | some (event, e) =>
    if event.isHeartbeat then
      match more with
      | 0 => [⟨event, e⟩]
      | more + 1 => ⟨event, e⟩ :: momentsWith e.heartbeat more
    else [⟨event, e⟩]

def moments (e : Engine) : List Moment :=
  e.momentsWith (e.watchdog.config.maxConsecutiveHeartbeats - 1)

def Moment.isRound (m : Moment) : Bool := m.event.isHeartbeat && m.engine.recovers

/-- The event, unless it is a heartbeat, changes nothing in the world. -/
def Moment.Unchanging (m : Moment) : Prop :=
  m.event.isHeartbeat = false →
    (m.engine.process m.event).2.world.revision = m.engine.world.revision

instance : DecidablePred Moment.Unchanging := fun m =>
  inferInstanceAs (Decidable (m.event.isHeartbeat = false →
    (m.engine.process m.event).2.world.revision = m.engine.world.revision))

def rounds (ms : List Moment) : Nat := ms.countP Moment.isRound

theorem momentsWith_dry {more : Nat} (h : e.take? = none) : e.momentsWith more = [] := by
  unfold momentsWith
  rw [h]

theorem momentsWith_event {event : Event} {more : Nat} (h : e.take? = some (event, e'))
    (hb : event.isHeartbeat = false) : e.momentsWith more = [⟨event, e'⟩] := by
  unfold momentsWith
  simp only [h, hb, Bool.false_eq_true, if_false]

theorem momentsWith_last {event : Event} (h : e.take? = some (event, e'))
    (hb : event.isHeartbeat = true) : e.momentsWith 0 = [⟨event, e'⟩] := by
  unfold momentsWith
  simp only [h, hb, if_true]

theorem momentsWith_heartbeat {event : Event} {more : Nat} (h : e.take? = some (event, e'))
    (hb : event.isHeartbeat = true) :
    e.momentsWith (more + 1) = ⟨event, e'⟩ :: e'.heartbeat.momentsWith more := by
  rw [momentsWith]
  simp only [h, hb, if_true]

/-- The moments are those of the events that the step takes out. -/
theorem Stepped.moments {more : Nat} {log : List Event} (hs : Stepped e more log e') :
    (e.momentsWith more).map (·.event) = log := by
  induction hs with
  | dry more h => rw [momentsWith_dry h, List.map_nil]
  | event more h hb => rw [momentsWith_event h hb, List.map_singleton]
  | last h hb => rw [momentsWith_last h hb, List.map_singleton]
  | heartbeat h hb hs ih => rw [momentsWith_heartbeat h hb, List.map_cons, ih]

theorem Stepped.bounded {more : Nat} {log : List Event} (hs : Stepped e more log e')
    (h : Bounded e) : (∀ m ∈ e.momentsWith more, Bounded m.engine) ∧ Bounded e' := by
  induction hs with
  | dry more ht => exact ⟨by simp [momentsWith_dry ht], h⟩
  | event more ht hb =>
      exact ⟨by simpa [momentsWith_event ht hb] using h.take ht, (h.take ht).handle _⟩
  | last ht hb => exact ⟨by simpa [momentsWith_last ht hb] using h.take ht, (h.take ht).heartbeat⟩
  | heartbeat ht hb hs ih =>
      obtain ⟨hm, hend⟩ := ih (h.take ht).heartbeat
      exact ⟨by simpa [momentsWith_heartbeat ht hb] using ⟨h.take ht, hm⟩, hend⟩

theorem Stepped.config {more : Nat} {log : List Event} (hs : Stepped e more log e') :
    ∀ m ∈ e.momentsWith more, m.engine.watchdog.config = e.watchdog.config := by
  induction hs with
  | dry more ht => simp [momentsWith_dry ht]
  | event more ht hb => simp [momentsWith_event ht hb, (take?_keeps ht).config]
  | last ht hb => simp [momentsWith_last ht hb, (take?_keeps ht).config]
  | @heartbeat e e' _ _ _ _ ht hb hs ih =>
      have hconfig := (take?_keeps ht).config
      simpa [momentsWith_heartbeat ht hb, hconfig, e'.heartbeat_keeps.config] using ih

/-- While nothing changes, the supervisor counts its rounds, and counts them up to the bound. -/
theorem Stepped.count {more : Nat} {log : List Event} (hs : Stepped e more log e')
    (hq : ∀ m ∈ e.momentsWith more, m.Unchanging) :
    e'.watchdog.unproductive = e.watchdog.unproductive + rounds (e.momentsWith more) := by
  induction hs with
  | dry more ht => simp [momentsWith_dry ht, rounds]
  | @event e e' event more ht hb =>
      rw [momentsWith_event ht hb] at hq ⊢
      have hsame := hq ⟨event, e'⟩ (by simp) hb
      obtain ⟨scheduler, -, rfl⟩ := take?_eq_some ht
      rw [handle_snd]
      dsimp only
      rw [if_pos hsame]
      simp [rounds, Moment.isRound, hb]
  | last ht hb =>
      obtain ⟨scheduler, -, rfl⟩ := take?_eq_some ht
      rw [momentsWith_last ht hb, heartbeat_count]
      simp [rounds, Moment.isRound, hb, List.countP_cons]
  | heartbeat ht hb hs ih =>
      rw [momentsWith_heartbeat ht hb] at hq ⊢
      obtain ⟨scheduler, -, rfl⟩ := take?_eq_some ht
      rw [ih fun m hm => hq m (List.mem_cons_of_mem _ hm), heartbeat_count]
      simp only [rounds, List.countP_cons, Moment.isRound, hb, Bool.true_and]
      omega

theorem cancel_count (e : Engine) (id : Nat) :
    (e.cancel id).2.watchdog.unproductive = e.watchdog.unproductive := by
  rcases e.cancel_cases id with ⟨-, h⟩ | ⟨-, h⟩
  · rw [h, disarmWatchdog_count]
  · rw [h]

theorem Bounded.cancel (h : Bounded e) (id : Nat) : Bounded (e.cancel id).2 := by
  refine ⟨(e.cancel_queue id).sound h.scheduler, ?_⟩
  rw [cancel_count, (e.cancel_keeps id).config]
  exact h.count

theorem Bounded.onContent {α : Type} (h : Bounded e) (x : EStateM Error Content α) :
    Bounded (final (onContent x) e) := by
  rw [final_onContent]
  exact ⟨h.scheduler, h.count⟩

def Request.Counted : Request → Prop
  | .setWatchdog d => d.unproductive ≤ d.config.maxUnproductiveRecoveries
  | _ => True

inductive Attainable : Engine → Prop
  | new (seed : UInt64) (limits : ExecutionLimits) (config : WatchdogConfig) :
      Attainable (new seed limits config)
  | request {e : Engine} (r : Request) (h : r.Counted) : Attainable e → Attainable (e.perform r)

theorem Bounded.arm (h : Bounded e) : Bounded (e.perform .arm) := by
  refine ⟨e.arm_queue.sound h.scheduler, ?_⟩
  rw [Engine.perform]
  rcases e.armWatchdog_cases with ⟨-, ha⟩ | ⟨-, -, ha⟩
  · rw [ha]
    exact h.count
  · rw [ha]
    exact Nat.zero_le _

theorem Bounded.perform {r : Request} (h : Bounded e) (hr : r.Counted) :
    Bounded (e.perform r) := by
  cases r with
  | install m => exact h.onContent _
  | merge m options => exact h.onContent _
  | spawnAll ds => exact h.onContent _
  | schedule type delay payload =>
      exact ⟨h.scheduler.perform (.schedule type delay payload), h.count⟩
  | cancel id => exact h.cancel id
  | arm => exact h.arm
  | disarm => exact h.disarm
  | setWatchdog d => exact ⟨h.disarm.scheduler, hr⟩
  | modifyWorld | setTracing => exact ⟨h.scheduler, h.count⟩
  | step => exact (e.step_stepped.bounded h).2
  | process event => exact h.process event
  | reset | clear => exact ⟨Scheduler.empty_sound, Nat.zero_le _⟩

theorem Attainable.bounded (h : Attainable e) : Bounded e := by
  induction h with
  | new => exact ⟨Scheduler.empty_sound, Nat.zero_le _⟩
  | request r hr _ ih => exact ih.perform hr

/-- The supervisor goes on counting: it is neither armed anew nor replaced. -/
def Request.Lasting : Request → Prop
  | .arm | .setWatchdog _ | .reset | .clear => False
  | _ => True

theorem Request.Lasting.counted {r : Request} (h : r.Lasting) : r.Counted := by
  cases r with
  | setWatchdog d => exact h.elim
  | _ => trivial

def after (e : Engine) (rs : List Request) : Engine := rs.foldl perform e

def momentsOf (e : Engine) : Request → List Moment
  | .step => e.moments
  | _ => []

def momentsIn (e : Engine) : List Request → List Moment
  | [] => []
  | r :: rs => e.momentsOf r ++ (e.perform r).momentsIn rs

theorem onContent_watchdog {α : Type} (x : EStateM Error Content α) (e : Engine) :
    (final (onContent x) e).watchdog = e.watchdog := by
  rw [final_onContent]

theorem perform_config {r : Request} (hr : r.Lasting) :
    (e.perform r).watchdog.config = e.watchdog.config := by
  cases r with
  | install | merge | spawnAll => exact congrArg Watchdog.config (onContent_watchdog _ e)
  | schedule | modifyWorld | setTracing | process => rfl
  | cancel id => exact (e.cancel_keeps id).config
  | disarm => exact e.disarmWatchdog_keeps.config
  | step => exact e.step_keeps.config
  | arm | setWatchdog | reset | clear => exact hr.elim

/-- A request that lasts counts the rounds that it has, if nothing changes. -/
theorem perform_count {r : Request} (hr : r.Lasting)
    (hq : ∀ m ∈ e.momentsOf r, m.Unchanging) :
    (e.perform r).watchdog.unproductive = e.watchdog.unproductive + rounds (e.momentsOf r) := by
  cases r with
  | install | merge | spawnAll => exact congrArg Watchdog.unproductive (onContent_watchdog _ e)
  | schedule | modifyWorld | setTracing | process => rfl
  | cancel id => exact e.cancel_count id
  | disarm => exact e.disarmWatchdog_count
  | step => exact e.step_stepped.count hq
  | arm | setWatchdog | reset | clear => exact hr.elim

/-- What holds at every moment of a run, and at its end. -/
theorem Bounded.momentsIn {rs : List Request} (h : Bounded e) (hr : ∀ r ∈ rs, r.Lasting) :
    (∀ m ∈ e.momentsIn rs, Bounded m.engine ∧
      m.engine.watchdog.config = e.watchdog.config) ∧
      Bounded (e.after rs) ∧ (e.after rs).watchdog.config = e.watchdog.config := by
  induction rs generalizing e with
  | nil => exact ⟨fun _ hm => absurd hm List.not_mem_nil, h, rfl⟩
  | cons r rs ih =>
      have hfirst := hr r List.mem_cons_self
      have hconfig := perform_config (e := e) hfirst
      obtain ⟨hmoments, hend, hendconfig⟩ :=
        ih (h.perform hfirst.counted) fun r hm => hr r (List.mem_cons_of_mem _ hm)
      refine ⟨fun m hm => ?_, hend, hendconfig.trans hconfig⟩
      rcases List.mem_append.mp hm with hm | hm
      · cases r with
        | step => exact ⟨(e.step_stepped.bounded h).1 m hm, e.step_stepped.config m hm⟩
        | _ => exact absurd hm List.not_mem_nil
      · exact ⟨(hmoments m hm).1, (hmoments m hm).2.trans hconfig⟩

/-- In a run in which no event changes anything all the rounds are counted. -/
theorem after_count {rs : List Request} (hr : ∀ r ∈ rs, r.Lasting)
    (hq : ∀ m ∈ e.momentsIn rs, m.Unchanging) :
    (e.after rs).watchdog.unproductive =
      e.watchdog.unproductive + rounds (e.momentsIn rs) := by
  induction rs generalizing e with
  | nil => rfl
  | cons r rs ih =>
      have hfirst := perform_count (hr r List.mem_cons_self)
        fun m hm => hq m (List.mem_append_left _ hm)
      have hrest := ih (e := e.perform r) (fun r hm => hr r (List.mem_cons_of_mem _ hm))
        fun m hm => hq m (List.mem_append_right _ hm)
      change ((e.perform r).after rs).watchdog.unproductive = _
      rw [hrest, hfirst, Engine.momentsIn, rounds, rounds, rounds, List.countP_append]
      omega

/-- The heartbeat is called off: it is no longer known nor queued, and nothing else is queued
instead. -/
structure GivesUp (e e' : Engine) : Prop where
  heartbeat : e'.watchdog.heartbeat = none
  nextId : e'.scheduler.nextId = e.scheduler.nextId
  events : e'.scheduler.events =
    e.scheduler.events.filter fun f => e.watchdog.heartbeat ≠ some f.id

theorem Bounded.calls_off (h : Bounded e)
    (hp : e.scheduler.hasPendingExcept heartbeatEvent = false)
    (hmax : e.watchdog.config.maxUnproductiveRecoveries ≤ e.watchdog.unproductive) :
    GivesUp e e.heartbeat := by
  rw [heartbeat_exhausted hp hmax, disarmWatchdog_eq]
  refine ⟨rfl, e.watchdog.disarm_nextId e.scheduler, ?_⟩
  rcases e.watchdog.disarm_cases e.scheduler with ⟨hb, hd⟩ | ⟨id, hb, hd⟩
  · rw [hd, hb]
    simp
  · rw [hd, hb]
    simpa [eq_comm] using h.scheduler.cancel_events id

/-- The supervisor gives up. While events change nothing, there are at most as many rounds of
recovery as the count leaves, for each of them is counted and the count never passes the bound; and
at the bound a heartbeat that would recover calls itself off. -/
theorem gives_up {e : Engine} (he : Attainable e) {rs : List Request}
    (hr : ∀ r ∈ rs, r.Lasting) (hq : ∀ m ∈ e.momentsIn rs, m.Unchanging) :
    rounds (e.momentsIn rs) ≤
        e.watchdog.config.maxUnproductiveRecoveries - e.watchdog.unproductive ∧
      (e.after rs).watchdog.unproductive =
        e.watchdog.unproductive + rounds (e.momentsIn rs) ∧
      (e.after rs).watchdog.unproductive ≤ e.watchdog.config.maxUnproductiveRecoveries ∧
      ∀ m ∈ e.momentsIn rs,
        m.engine.watchdog.unproductive ≤ e.watchdog.config.maxUnproductiveRecoveries ∧
        (m.event.isHeartbeat = true →
          m.engine.watchdog.unproductive = e.watchdog.config.maxUnproductiveRecoveries →
          m.engine.scheduler.hasPendingExcept heartbeatEvent = false →
          GivesUp m.engine m.engine.heartbeat) := by
  obtain ⟨hmoments, hend, hconfig⟩ := he.bounded.momentsIn hr
  have hcount := after_count hr hq
  have hle := hend.count
  rw [hconfig] at hle
  refine ⟨by omega, hcount, hle, fun m hm => ?_⟩
  obtain ⟨hm, hmconfig⟩ := hmoments m hm
  refine ⟨hmconfig ▸ hm.count, fun _ hmax hp => hm.calls_off hp ?_⟩
  rw [hmconfig, hmax]

def unheard : Engine :=
  (new 0 {} {}).perform (.setWatchdog
    { config := { maxUnproductiveRecoveries := 2 }, heuristic := fun _ => [(⟨1⟩, none)] })
    |>.perform .arm

theorem unheard_gives_up :
    Attainable unheard ∧
      rounds (unheard.momentsIn [.step, .step, .step]) = 2 ∧
      (unheard.after [.step, .step, .step]).watchdog.unproductive = 0 + 2 ∧
      (unheard.after [.step, .step, .step]).watchdog.heartbeat = none := by
  have he : Attainable unheard :=
    .request .arm trivial (.request (.setWatchdog _) (Nat.zero_le _) (.new 0 {} {}))
  have hq : ∀ m ∈ unheard.momentsIn [.step, .step, .step], m.Unchanging := by decide +kernel
  have hrounds : rounds (unheard.momentsIn [.step, .step, .step]) = 2 := by decide +kernel
  have hstart : unheard.watchdog.unproductive = 0 := by decide +kernel
  obtain ⟨-, hcount, -⟩ := gives_up he (by simp [Request.Lasting]) hq
  exact ⟨he, hrounds, hcount.trans (by rw [hstart, hrounds]), by decide +kernel⟩

end Engine

end RuleSim
