import RuleSim.Proofs.Engine.Heartbeat
import RuleSim.Proofs.Scheduler.Chronology

namespace RuleSim

open Watchdog (heartbeatEvent)

theorem Execution.Changes.queue {types : String → Prop} {s t : Stage} (h : Changes types s t) :
    s.scheduler.Leads t.scheduler := by
  induction h with
  | refl => exact .refl _
  | @tail t u _ hc ih =>
      cases hc with
      | world | random | trace => exact ih
      | @schedule type _ delay payload =>
          exact ih.trans (t.scheduler.leads_perform (.schedule type delay payload))
      | recur _ _ _ _ hrec => exact ih.trans (Scheduler.leads_recurring hrec)

namespace Watchdog

theorem recover_queue (d : Watchdog) (s : Scheduler) (t : TraceSink)
    (stalled : List (EntityId × Option EntityId)) : s.Leads (d.recover s t stalled).1 := by
  induction stalled generalizing s t with
  | nil => exact .refl s
  | cons p rest ih =>
      exact (s.leads_perform (.schedule d.config.recoveryEvent d.config.recoveryDelay
        { source := some p.1, target := p.2 })).trans (ih _ _)

theorem disarm_queue (d : Watchdog) (s : Scheduler) : s.Leads (d.disarm s).2 := by
  rcases d.disarm_cases s with ⟨-, h⟩ | ⟨id, -, h⟩
  · rw [h]
    exact .refl s
  · rw [h]
    exact s.leads_perform (.cancel id)

end Watchdog

namespace Engine

variable {e e' : Engine}

theorem take?_queue {event : Event} (h : e.take? = some (event, e')) :
    e.scheduler.Leads e'.scheduler := by
  obtain ⟨scheduler, hp, rfl⟩ := take?_eq_some h
  exact Scheduler.leads_pop hp

theorem heartbeat_queue (e : Engine) : e.scheduler.Leads e.heartbeat.scheduler := by
  rcases e.heartbeat_cases with ⟨-, h⟩ | ⟨-, -, h⟩ | ⟨-, h⟩
  · rw [h]
    exact .refl _
  · rw [h]
    exact e.watchdog.disarm_queue e.scheduler
  · rw [h]
    exact Watchdog.recover_queue ..

theorem process_queue (e : Engine) (event : Event) :
    e.scheduler.Leads (e.process event).2.scheduler := (e.process_changes event).queue

theorem handle_queue (e : Engine) (event : Event) :
    e.scheduler.Leads (e.handle event).2.scheduler := by
  rw [handle_snd]
  exact e.process_queue event

theorem Stepped.queue {more : Nat} {log : List Event} (hs : Stepped e more log e') :
    e.scheduler.Leads e'.scheduler :=
  hs.along (R := fun e _ f => e.scheduler.Leads f.scheduler) (fun _ => .refl _) .trans take?_queue
    heartbeat_queue handle_queue

theorem arm_queue (e : Engine) : e.scheduler.Leads (e.perform .arm).scheduler := by
  rw [perform]
  rcases e.armWatchdog_cases with ⟨-, ha⟩ | ⟨-, hactive, ha⟩
  · rw [ha]
    exact .refl _
  · have h : e.scheduler.scheduleRecurringAfter heartbeatEvent e.watchdog.config.interval
        e.watchdog.config.interval {} = .ok (e.scheduler.add _ _ _ _) :=
      if_pos (WatchdogConfig.validInterval hactive)
    rw [ha]
    exact Scheduler.leads_recurring h

theorem cancel_queue (e : Engine) (id : Nat) : e.scheduler.Leads (e.cancel id).2.scheduler := by
  rcases e.cancel_cases id with ⟨-, h⟩ | ⟨-, h⟩
  · rw [h]
    exact e.watchdog.disarm_queue e.scheduler
  · rw [h]
    exact e.scheduler.leads_perform (.cancel id)

def Request.Rewinds : Request → Prop
  | .reset | .clear => True
  | _ => False

theorem perform_queue (e : Engine) {r : Request} (hr : ¬ r.Rewinds) :
    e.scheduler.Leads (e.perform r).scheduler := by
  cases r with
  | install m =>
      rw [perform, Engine.install, final_onContent]
      exact .refl _
  | merge m options =>
      rw [perform, Engine.merge, final_onContent]
      exact .refl _
  | spawnAll ds =>
      rw [perform, Engine.spawnAll, final_onContent]
      exact .refl _
  | schedule type delay payload =>
      exact e.scheduler.leads_perform (.schedule type delay payload)
  | cancel id => exact e.cancel_queue id
  | arm => exact e.arm_queue
  | disarm | setWatchdog => exact e.watchdog.disarm_queue e.scheduler
  | modifyWorld | setTracing => exact .refl _
  | step => exact e.step_stepped.queue
  | process event => exact e.process_queue event
  | reset | clear => exact (hr trivial).elim

end Engine

end RuleSim
