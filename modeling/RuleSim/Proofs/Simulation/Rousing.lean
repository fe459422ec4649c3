import RuleSim.Proofs.Simulation.Reachable
import RuleSim.Proofs.Simulation.Reset

namespace RuleSim

open Watchdog (heartbeatEvent)

namespace Engine

/-- The supervisor is armed: it is as it was if it was armed before, and otherwise it has counted
nothing and its heartbeat is due after one interval. -/
structure Roused (e e' : Engine) : Prop where
  armed : e'.watchdog.isArmed = true
  stays : e.watchdog.isArmed = true → e'.watchdog = e.watchdog
  fresh : e.watchdog.isArmed = false → e'.watchdog.unproductive = 0 ∧
    ∃ f ∈ e'.scheduler.events, e'.watchdog.heartbeat = some f.id ∧ f.isHeartbeat = true ∧
      f.time = e.time + e.watchdog.config.interval ∧ f.interval = some e.watchdog.config.interval

theorem armWatchdog_roused {e : Engine} (h : e.watchdog.config.isActive = true) :
    ∃ e', e.armWatchdog = .ok e' ∧ Roused e e' := by
  rcases e.armWatchdog_cases with ⟨hcase, ha⟩ | ⟨hnone, -, ha⟩
  · have harmed : e.watchdog.isArmed = true := by simpa [h] using hcase
    rw [ha]
    exact ⟨e, rfl, harmed, fun _ => rfl, fun hn => by cases harmed.symm.trans hn⟩
  · have hdelay : Scheduler.delayOf e.watchdog.config.interval = e.watchdog.config.interval := by
      have hvalid := WatchdogConfig.validInterval h
      exact if_pos (Bool.and_eq_true_iff.mp hvalid).2
    rw [ha, hdelay]
    refine ⟨_, rfl, rfl, fun hs => ?_, fun _ => ⟨rfl, ?_⟩⟩
    · rw [Watchdog.isArmed, hnone] at hs
      cases hs
    · refine ⟨⟨e.scheduler.nextId, heartbeatEvent, e.time + e.watchdog.config.interval, {},
        e.scheduler.nextSequence, some e.watchdog.config.interval⟩, ?_, rfl, by simp [Event.isHeartbeat], rfl, rfl⟩
      rw [Scheduler.events_add]
      exact Multiset.mem_cons_self _ _

theorem Roused.of_queue {e e' : Engine} {scheduler : Scheduler}
    (h : Roused { e with scheduler } e') (ht : scheduler.now = e.scheduler.now) : Roused e e' where
  armed := h.armed
  stays := h.stays
  fresh hn := by
    have hf := h.fresh hn
    rwa [time, ht] at hf

end Engine

namespace Simulation

inductive Rouses (s : Simulation) : Call → Prop
  | start (h : s.phase ≠ .running) : Rouses s .start
  | resume (h : s.phase = .paused) : Rouses s .resume
  | schedule (h : s.phase = .running) (type : String) (delay : Binary64) (payload : Payload) :
      Rouses s (.schedule type delay payload)

theorem armWatchdog_ok {s : Simulation} {e : Engine} (h : s.engine.armWatchdog = .ok e) :
    armWatchdog s = .ok ⟨⟩ { s with engine := e } := by
  rw [armWatchdog, get_bind, h]
  rfl

section Calls

variable {s : Simulation} (h : s.engine.watchdog.config.isActive = true)

include h

theorem arm_enter_roused : ∃ s', (do armWatchdog; enter .running : Host Unit) s = .ok ⟨⟩ s' ∧
    s'.phase = .running ∧ s.engine.Roused s'.engine := by
  obtain ⟨e, harm, hroused⟩ := Engine.armWatchdog_roused h
  obtain ⟨subscribers, henter⟩ := enter_eq .running { s with engine := e }
  refine ⟨{ s with engine := e, phase := .running, subscribers }, ?_, rfl, hroused⟩
  rw [bind_of_ok (armWatchdog_ok harm), henter]

theorem start_roused (hp : s.phase ≠ .running) :
    ∃ s', start s = .ok ⟨⟩ s' ∧ s'.phase = .running ∧ s.engine.Roused s'.engine := by
  rw [start, get_bind, if_pos hp]
  exact arm_enter_roused h

theorem resume_roused (hp : s.phase = .paused) :
    ∃ s', resume s = .ok ⟨⟩ s' ∧ s'.phase = .running ∧ s.engine.Roused s'.engine := by
  rw [resume, get_bind, if_pos hp]
  exact arm_enter_roused h

theorem schedule_roused (hp : s.phase = .running) (type : String) (delay : Binary64)
    (payload : Payload) : ∃ id s', schedule type delay payload s = .ok id s' ∧
      s'.phase = .running ∧ s.engine.Roused s'.engine := by
  obtain ⟨e, harm, hroused⟩ :=
    Engine.armWatchdog_roused (e := (s.engine.schedule type delay payload).2) h
  rw [schedule, get_bind]
  dsimp only
  rw [set_bind, if_pos hp, bind_of_ok (armWatchdog_ok harm)]
  exact ⟨_, _, rfl, hp, hroused.of_queue rfl⟩

/-- A supervisor that is active is armed by a start, by a resume and by each event that the host
schedules while the simulation runs, and these do not fail. If it was not armed before, its count is
back at zero and a heartbeat is due after one interval; if it was, it is left as it was. -/
theorem roused_armed {c : Call} (hc : Rouses s c) :
    ∃ a s', perform c s = .ok a s' ∧ s'.phase = .running ∧ s.engine.Roused s'.engine := by
  cases hc with
  | start hp =>
      obtain ⟨s', hs, hrest⟩ := start_roused h hp
      exact ⟨.done, s', bind_of_ok hs _, hrest⟩
  | resume hp =>
      obtain ⟨s', hs, hrest⟩ := resume_roused h hp
      exact ⟨.done, s', bind_of_ok hs _, hrest⟩
  | schedule hp type delay payload =>
      obtain ⟨id, s', hs, hrest⟩ := schedule_roused h hp type delay payload
      exact ⟨.scheduled id, s', bind_of_ok hs _, hrest⟩

end Calls

def duel : Module where
  version := "1.0"
  name := "duel"
  components := [
    { name := "Health", fields := [⟨"current", .integer, some (.int 10)⟩] },
    { name := "Target", fields := [⟨"entity", .entity, none⟩] }]
  initialState := some [
    ⟨some 1, none, [("Health", []), ("Target", [("entity", .entity ⟨2⟩)])], []⟩,
    ⟨some 2, none, [("Health", []), ("Target", [("entity", .entity ⟨1⟩)])], []⟩]

def faceOff : Simulation := (new {}).operate (.load duel)

def standoff : Simulation := (faceOff.operate (.call .start)).operate (.call .step)

/-- After the load nothing is armed, and the start arms it. -/
theorem faceOff_roused : ∃ a s', perform .start faceOff = .ok a s' ∧
    s'.engine.watchdog.isArmed = true ∧ s'.engine.watchdog.unproductive = 0 := by
  have hactive : faceOff.engine.watchdog.config.isActive = true := by decide +kernel
  have hphase : faceOff.phase = .idle := by decide +kernel
  have hdormant : faceOff.engine.watchdog.isArmed = false := by decide +kernel
  obtain ⟨a, s', hs, -, hroused⟩ := roused_armed hactive (.start (by rw [hphase]; decide))
  exact ⟨a, s', hs, hroused.armed, (hroused.fresh hdormant).1⟩

/-- While a heartbeat is pending the count goes on. -/
theorem standoff_stays : ¬ ∀ (s : Simulation) (c : Call) (a : Answer) (s' : Simulation),
    Reachable s → s.engine.watchdog.config.isActive = true → Rouses s c → perform c s = .ok a s' →
      s'.engine.watchdog.isArmed = true ∧ s'.engine.watchdog.unproductive = 0 := by
  intro h
  have hr : Reachable standoff :=
    .operation _ (.operation _ (.operation _ (.new {})))
  have hactive : standoff.engine.watchdog.config.isActive = true := by decide +kernel
  have hphase : standoff.phase = .running := by decide +kernel
  have harmed : standoff.engine.watchdog.isArmed = true := by decide +kernel
  have hcount : standoff.engine.watchdog.unproductive = 1 := by decide +kernel
  obtain ⟨id, s', hs, -, hroused⟩ := schedule_roused hactive hphase "help" Binary64.zero {}
  have hzero := (h standoff _ (.scheduled id) s' hr hactive (.schedule hphase "help" Binary64.zero {})
    (bind_of_ok hs _)).2
  rw [hroused.stays harmed, hcount] at hzero
  cases hzero

end Simulation

end RuleSim
