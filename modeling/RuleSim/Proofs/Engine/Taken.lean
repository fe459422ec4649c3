import RuleSim.Proofs.Engine.Operations
import RuleSim.Proofs.Execution.Change

namespace RuleSim

structure Scheduler.Grows (s t : Scheduler) : Prop where
  now : t.now = s.now
  pending : s.events ≤ t.events

namespace Scheduler

theorem Grows.refl (s : Scheduler) : Grows s s := ⟨rfl, le_rfl⟩

theorem Grows.trans {s t u : Scheduler} (hst : Grows s t) (htu : Grows t u) : Grows s u :=
  ⟨htu.now.trans hst.now, hst.pending.trans htu.pending⟩

theorem add_grows (s : Scheduler) (type : String) (time : Binary64) (payload : Payload)
    (interval : Option Binary64) : Grows s (s.add type time payload interval).2 := by
  refine ⟨rfl, ?_⟩
  rw [events_add]
  exact Multiset.le_cons_self _ _

end Scheduler

open Scheduler (Grows events)

theorem Execution.Changes.grows {types : String → Prop} {s t : Stage} (h : Changes types s t) :
    Grows s.scheduler t.scheduler := by
  induction h with
  | refl => exact .refl _
  | @tail t u _ hc ih =>
      refine ih.trans ?_
      cases hc with
      | world | random | trace => exact .refl _
      | schedule ht delay payload => exact t.scheduler.add_grows ..
      | @recur type ht delay interval payload _ _ hs =>
          rcases t.scheduler.scheduleRecurringAfter_cases type delay interval payload with
            ⟨-, h⟩ | ⟨-, e, h⟩
          · rw [h, Except.ok.injEq] at hs
            have hg := t.scheduler.add_grows type
              (t.scheduler.now + Scheduler.delayOf delay) payload (some interval)
            rwa [hs] at hg
          · simp [h] at hs

theorem Watchdog.recover_grows (d : Watchdog) (s : Scheduler) (t : TraceSink)
    (stalled : List (EntityId × Option EntityId)) : Grows s (d.recover s t stalled).1 := by
  induction stalled generalizing s t with
  | nil => exact .refl s
  | cons p rest ih => exact (s.add_grows ..).trans (ih _ _)

namespace TraceSink

def fired (t : TraceSink) : List TraceEvent := t.events.toList.filter (·.kind = "event_fired")

theorem fired_record_of_ne (t : TraceSink) {e : TraceEvent} (h : e.kind ≠ "event_fired") :
    (t.record e).fired = t.fired := by
  unfold record
  split
  · simp [fired, h]
  · rfl

structure Quiet (t u : TraceSink) : Prop where
  enabled : u.enabled = t.enabled
  fired : u.fired = t.fired

theorem Quiet.refl (t : TraceSink) : Quiet t t := ⟨rfl, rfl⟩

theorem Quiet.trans {t u v : TraceSink} (htu : Quiet t u) (huv : Quiet u v) : Quiet t v :=
  ⟨huv.enabled.trans htu.enabled, huv.fired.trans htu.fired⟩

theorem record_quiet (t : TraceSink) {e : TraceEvent} (h : e.kind ≠ "event_fired") :
    Quiet t (t.record e) := ⟨t.record_enabled e, t.fired_record_of_ne h⟩

end TraceSink

open TraceSink (Quiet)

theorem Execution.Changes.quiet {types : String → Prop} {s t : Stage} (h : Changes types s t) :
    Quiet s.trace t.trace := by
  induction h with
  | refl => exact .refl _
  | @tail t u _ hc ih =>
      refine ih.trans ?_
      cases hc with
      | world | random | schedule | recur => exact .refl _
      | trace e he => exact t.trace.record_quiet he

theorem Watchdog.recover_quiet (d : Watchdog) (s : Scheduler) (t : TraceSink)
    (stalled : List (EntityId × Option EntityId)) : Quiet t (d.recover s t stalled).2 := by
  induction stalled generalizing s t with
  | nil => exact .refl t
  | cons p rest ih => exact (t.record_quiet (by simp [TraceEvent.kind])).trans (ih _ _)

namespace Engine

/-- The events that a step takes out which may handle `more` heartbeats after the first. -/
def takenWith (e : Engine) (more : Nat) : List Event :=
  match e.take? with
  | none => []
  | some (event, e) =>
    if event.isHeartbeat then
      match more with
      | 0 => [event]
      | more + 1 => event :: takenWith e.heartbeat more
    else [event]

def taken (e : Engine) : List Event :=
  e.takenWith (e.watchdog.config.maxConsecutiveHeartbeats - 1)

/-- Just the events of the log have been taken out. Only the heartbeat may have been cancelled. -/
structure Drains (e : Engine) (log : List Event) (e' : Engine) : Prop where
  clock : e'.time = e.time ∨ ∃ f ∈ log, e'.time = f.time
  pending : ∀ f ∈ e.scheduler.events, f ∈ log ∨
    (e.watchdog.heartbeat = some f.id ∧ e'.watchdog.heartbeat = none) ∨ f ∈ e'.scheduler.events
  heartbeat : ∀ id ∈ e'.watchdog.heartbeat, id ∈ e.watchdog.heartbeat

theorem Drains.trans {e e' e'' : Engine} {log log' : List Event} (h : Drains e log e')
    (h' : Drains e' log' e'') : Drains e (log ++ log') e'' where
  clock := by
    rcases h'.clock with hc | ⟨f, hf, hc⟩
    · rcases h.clock with hd | ⟨f, hf, hd⟩
      · exact .inl (hc.trans hd)
      · exact .inr ⟨f, List.mem_append_left _ hf, hc.trans hd⟩
    · exact .inr ⟨f, List.mem_append_right _ hf, hc⟩
  pending := by
    intro f hf
    rcases h.pending f hf with hl | ⟨hb, hn⟩ | hp
    · exact .inl (List.mem_append_left _ hl)
    · refine .inr (.inl ⟨hb, Option.eq_none_iff_forall_not_mem.mpr fun id hid => ?_⟩)
      have hid' := h'.heartbeat id hid
      simp [hn] at hid'
    · rcases h'.pending f hp with hl | ⟨hb, hn⟩ | hp
      · exact .inl (List.mem_append_right _ hl)
      · exact .inr (.inl ⟨h.heartbeat f.id hb, hn⟩)
      · exact .inr (.inr hp)
  heartbeat id hid := h.heartbeat id (h'.heartbeat id hid)

theorem Drains.of_grows {e e' : Engine} (hg : Grows e.scheduler e'.scheduler)
    (hb : e'.watchdog.heartbeat = e.watchdog.heartbeat) : Drains e [] e' where
  clock := .inl hg.now
  pending _ hf := .inr (.inr (Multiset.mem_of_le hg.pending hf))
  heartbeat _ hid := hb ▸ hid

theorem disarmWatchdog_drains (e : Engine) : Drains e [] e.disarmWatchdog := by
  rw [disarmWatchdog_eq]
  rcases e.watchdog.disarm_cases e.scheduler with ⟨hb, hd⟩ | ⟨id, hb, hd⟩
  · rw [hd]
    exact .of_grows (.refl _) hb.symm
  · rw [hd]
    rcases e.scheduler.cancel_cases id with ⟨hc, -⟩ | ⟨g, heap, hc, hid, hev, -⟩
    · rw [hc]
      exact ⟨.inl rfl, fun f hf => .inr (.inr hf), by simp⟩
    · rw [hc]
      refine ⟨.inl rfl, fun f hf => ?_, by simp⟩
      rw [hev] at hf
      rcases Multiset.mem_cons.mp hf with rfl | hf
      · exact .inr (.inl ⟨by rw [hb, hid], rfl⟩)
      · exact .inr (.inr hf)

theorem heartbeat_drains (e : Engine) : Drains e [] e.heartbeat := by
  rcases e.heartbeat_cases with ⟨-, h⟩ | ⟨-, -, h⟩ | ⟨-, h⟩
  · rw [h]
    exact .of_grows (.refl _) rfl
  · rw [h]
    exact e.disarmWatchdog_drains
  · rw [h]
    exact .of_grows (Watchdog.recover_grows ..) rfl

theorem heartbeat_quiet (e : Engine) : Quiet e.trace e.heartbeat.trace := by
  rcases e.heartbeat_cases with ⟨-, h⟩ | ⟨-, -, h⟩ | ⟨-, h⟩
  · rw [h]
    exact .refl _
  · rw [h]
    exact .refl _
  · rw [h]
    exact Watchdog.recover_quiet ..

theorem process_changes (e : Engine) (event : Event) :
    Execution.Changes (fun _ => True) e.toStage (e.process event).2.toStage :=
  Execution.runEvent_changes e.rules e.limits event e.toStage fun _ _ _ _ => trivial

theorem handle_drains (e : Engine) (event : Event) : Drains e [] (e.handle event).2 := by
  rw [handle_snd]
  exact .of_grows (e.process_changes event).grows rfl

theorem handle_quiet (e : Engine) (event : Event) : Quiet e.trace (e.handle event).2.trace := by
  rw [handle_snd]
  exact (e.process_changes event).quiet

theorem take?_drains {e e' : Engine} {event : Event} (h : e.take? = some (event, e')) :
    Drains e [event] e' := by
  obtain ⟨scheduler, hp, rfl⟩ := take?_eq_some h
  have hpd := Scheduler.popped hp
  obtain ⟨rest, hev, hev'⟩ := hpd.rest
  refine ⟨?_, fun f hf => ?_, fun id hid => hid⟩
  · have hn := hpd.now
    split at hn
    · exact .inr ⟨event, by simp, hn⟩
    · exact .inl hn
  · rw [hev] at hf
    rcases Multiset.mem_cons.mp hf with rfl | hf
    · exact .inl (by simp)
    · refine .inr (.inr ?_)
      change f ∈ scheduler.events
      rw [hev']
      exact Multiset.mem_add.mpr (.inr hf)

/-- What one step can do: the events that it takes out, and where it ends. -/
inductive Stepped : Engine → Nat → List Event → Engine → Prop
  | dry {e : Engine} (more : Nat) (h : e.take? = none) : Stepped e more [] e
  | event {e e' : Engine} {event : Event} (more : Nat) (h : e.take? = some (event, e'))
      (hb : event.isHeartbeat = false) : Stepped e more [event] (e'.handle event).2
  | last {e e' : Engine} {event : Event} (h : e.take? = some (event, e'))
      (hb : event.isHeartbeat = true) : Stepped e 0 [event] e'.heartbeat
  | heartbeat {e e' e'' : Engine} {event : Event} {more : Nat} {log : List Event}
      (h : e.take? = some (event, e')) (hb : event.isHeartbeat = true)
      (hs : Stepped e'.heartbeat more log e'') : Stepped e (more + 1) (event :: log) e''

theorem stepAfter_stepped (e : Engine) (n more : Nat) :
    Stepped e more (e.takenWith more) (e.stepAfter n more).2 := by
  induction more generalizing e n with
  | zero =>
      unfold takenWith stepAfter
      cases h : e.take? with
      | none => exact .dry 0 h
      | some p =>
          dsimp only
          split
          · next hb => exact .last h hb
          · next hb => exact .event 0 h (by simpa using hb)
  | succ more ih =>
      unfold takenWith stepAfter
      cases h : e.take? with
      | none => exact .dry (more + 1) h
      | some p =>
          dsimp only
          split
          · next hb =>
              have hs := ih p.2.heartbeat (n + 1)
              split
              · next hempty =>
                  have hdry := take?_eq_none_of_isEmpty hempty
                  unfold takenWith stepAfter at hs
                  unfold takenWith
                  simp only [hdry] at hs ⊢
                  exact .heartbeat h hb hs
              · exact .heartbeat h hb hs
          · next hb => exact .event (more + 1) h (by simpa using hb)

theorem Stepped.along {R : Engine → List Event → Engine → Prop} (hrefl : ∀ e, R e [] e)
    (htrans : ∀ {e f g log log'}, R e log f → R f log' g → R e (log ++ log') g)
    (htake : ∀ {e f event}, e.take? = some (event, f) → R e [event] f)
    (hbeat : ∀ e, R e [] e.heartbeat) (hhandle : ∀ e event, R e [] (e.handle event).2)
    {e e' : Engine} {more : Nat} {log : List Event} (hs : Stepped e more log e') : R e log e' := by
  induction hs with
  | dry => exact hrefl _
  | event more h hb => exact htrans (htake h) (hhandle _ _)
  | last h hb => exact htrans (htake h) (hbeat _)
  | heartbeat h hb hs ih => exact htrans (htake h) (htrans (hbeat _) ih)

theorem Stepped.drains {e e' : Engine} {more : Nat} {log : List Event}
    (hs : Stepped e more log e') : Drains e log e' :=
  hs.along (fun _ => .of_grows (.refl _) rfl) .trans take?_drains heartbeat_drains handle_drains

theorem step_stepped (e : Engine) :
    Stepped e (e.watchdog.config.maxConsecutiveHeartbeats - 1) e.taken e.step.2 :=
  e.stepAfter_stepped 0 _

theorem step_drains (e : Engine) : Drains e e.taken e.step.2 := e.step_stepped.drains

structure Reports (e : Engine) (log : List Event) (e' : Engine) : Prop where
  enabled : e'.trace.enabled = e.trace.enabled
  fired : e.trace.enabled = true → e'.trace.fired =
    e.trace.fired ++ log.map fun f => .eventFired f.id f.type f.time

theorem Reports.trans {e e' e'' : Engine} {log log' : List Event} (h : Reports e log e')
    (h' : Reports e' log' e'') : Reports e (log ++ log') e'' where
  enabled := h'.enabled.trans h.enabled
  fired ht := by
    rw [h'.fired (h.enabled.trans ht), h.fired ht, List.map_append, List.append_assoc]

theorem Reports.of_quiet {e e' : Engine} (h : Quiet e.trace e'.trace) : Reports e [] e' where
  enabled := h.enabled
  fired _ := by rw [h.fired, List.map_nil, List.append_nil]

theorem take?_reports {e e' : Engine} {event : Event} (h : e.take? = some (event, e')) :
    Reports e [event] e' := by
  obtain ⟨scheduler, -, rfl⟩ := take?_eq_some h
  refine ⟨e.trace.record_enabled _, fun ht => ?_⟩
  simp [TraceSink.record, TraceSink.fired, ht, TraceEvent.kind]

theorem Stepped.reports {e e' : Engine} {more : Nat} {log : List Event}
    (hs : Stepped e more log e') : Reports e log e' :=
  hs.along (fun _ => .of_quiet (.refl _)) .trans take?_reports
    (fun e => .of_quiet e.heartbeat_quiet) fun e event => .of_quiet (e.handle_quiet event)

/-- While tracing is on, a step reports just the events that it takes out. -/
theorem step_fired (e : Engine) (ht : e.trace.enabled = true) :
    e.step.2.trace.fired =
      e.trace.fired ++ e.taken.map fun f => .eventFired f.id f.type f.time :=
  e.step_stepped.reports.fired ht

end Engine

end RuleSim
