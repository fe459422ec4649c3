import RuleSim.Proofs.Engine.Kept
import RuleSim.Proofs.Execution.Alike

namespace RuleSim

open World (Alike)

/-- A heuristic of the host's own goes by what can be read of a world. -/
def Heuristic.Observes (f : Heuristic) : Prop := ∀ k w v, Alike k w v → f v = f w

theorem Heuristic.combatants_observes (c : WatchdogConfig) : (combatants c).Observes := by
  intro k w v h
  have halive : isAlive c v = isAlive c w := by
    funext id
    rw [isAlive, isAlive, h.field?]
  have htarget : aliveTarget? c v = aliveTarget? c w := by
    funext id
    unfold aliveTarget?
    simp only [halive, h.field?, h.hasEntity]
  rw [combatants, combatants, h.query, htarget]

namespace Watchdog

/-- What recovery schedules does not depend on what is traced. -/
theorem recover_untraced (d : Watchdog) (s : Scheduler) (t u : TraceSink)
    (stalled : List (EntityId × Option EntityId)) :
    (d.recover s u stalled).1 = (d.recover s t stalled).1 := by
  induction stalled generalizing s t u with
  | nil => rfl
  | cons p rest ih => exact ih _ _ _

theorem onHeartbeat_alike (d : Watchdog) {w v : World} (h : d.heuristic v = d.heuristic w)
    (s : Scheduler) (t u : TraceSink) :
    (d.onHeartbeat v s u).2.1 = (d.onHeartbeat w s t).2.1 ∧
      (d.onHeartbeat v s u).2.2.1 = (d.onHeartbeat w s t).2.2.1 := by
  unfold onHeartbeat
  rw [h]
  split
  · exact ⟨rfl, rfl⟩
  · dsimp only
    split
    · exact ⟨rfl, rfl⟩
    · split
      · exact ⟨rfl, rfl⟩
      · exact ⟨rfl, recover_untraced ..⟩

end Watchdog

namespace Engine

structure Lockstep (E : Engine → Engine → Prop) : Prop where
  scheduler {e f : Engine} (h : E e f) : f.scheduler = e.scheduler
  config {e f : Engine} (h : E e f) : f.watchdog.config = e.watchdog.config
  take? {e f : Engine} (h : E e f) : (e.take? = none ∧ f.take? = none) ∨
    ∃ event e' f', e.take? = some (event, e') ∧ f.take? = some (event, f') ∧ E e' f'
  heartbeat {e f : Engine} (h : E e f) : E e.heartbeat f.heartbeat
  handle {e f : Engine} (h : E e f) (event : Event) :
    (f.handle event).1 = (e.handle event).1 ∧ E (e.handle event).2 (f.handle event).2

namespace Lockstep

variable {E : Engine → Engine → Prop} {e f : Engine} (hE : Lockstep E)
include hE

theorem stepAfter (h : E e f) (taken more : Nat) :
    (f.stepAfter taken more).1 = (e.stepAfter taken more).1 ∧
      E (e.stepAfter taken more).2 (f.stepAfter taken more).2 := by
  induction more generalizing e f taken with
  | zero =>
      unfold Engine.stepAfter
      rcases hE.take? h with ⟨he, hf⟩ | ⟨event, e', f', he, hf, h⟩
      · rw [he, hf]
        exact ⟨rfl, h⟩
      · rw [he, hf]
        dsimp only
        split
        · have hbeat := hE.heartbeat h
          rw [time, time, hE.scheduler hbeat]
          exact ⟨rfl, hbeat⟩
        · obtain ⟨hreport, hhandled⟩ := hE.handle h event
          rw [time, time, hreport, hE.scheduler hhandled]
          exact ⟨rfl, hhandled⟩
  | succ more ih =>
      unfold Engine.stepAfter
      rcases hE.take? h with ⟨he, hf⟩ | ⟨event, e', f', he, hf, h⟩
      · rw [he, hf]
        exact ⟨rfl, h⟩
      · rw [he, hf]
        dsimp only
        split
        · have hbeat := hE.heartbeat h
          rw [time, time, hE.scheduler hbeat]
          split
          · exact ⟨rfl, hbeat⟩
          · exact ih hbeat (taken + 1)
        · obtain ⟨hreport, hhandled⟩ := hE.handle h event
          rw [time, time, hreport, hE.scheduler hhandled]
          exact ⟨rfl, hhandled⟩

/-- A step does the same and is reported the same. -/
theorem step (h : E e f) : f.step.1 = e.step.1 ∧ E e.step.2 f.step.2 := by
  unfold Engine.step
  rw [hE.config h]
  exact hE.stepAfter h 0 _

end Lockstep

structure Alike (k : UInt64) (e f : Engine) : Prop where
  stage : e.toStage.Alike k f.toStage
  rules : f.rules = e.rules
  seed : f.seed = e.seed
  limits : f.limits = e.limits
  watchdog : f.watchdog = e.watchdog

variable {k : UInt64} {e f : Engine}

namespace Alike

theorem world (h : Alike k e f) : e.world.Alike k f.world := h.stage.world

theorem scheduler (h : Alike k e f) : f.scheduler = e.scheduler := h.stage.scheduler

theorem random (h : Alike k e f) : f.random = e.random := h.stage.random

theorem update (h : Alike k e f) (s : Scheduler) (d : Watchdog) (t u : TraceSink) :
    Alike k { e with scheduler := s, watchdog := d, trace := t }
      { f with scheduler := s, watchdog := d, trace := u } :=
  ⟨⟨h.world, rfl, h.random⟩, h.rules, h.seed, h.limits, rfl⟩

theorem schedule (h : Alike k e f) (type : String) (delay : Binary64) (payload : Payload) :
    (f.schedule type delay payload).1 = (e.schedule type delay payload).1 ∧
      Alike k (e.schedule type delay payload).2 (f.schedule type delay payload).2 := by
  unfold Engine.schedule
  rw [h.scheduler]
  exact ⟨rfl, ⟨h.world, rfl, h.random⟩, h.rules, h.seed, h.limits, h.watchdog⟩

theorem disarm (h : Alike k e f) : Alike k e.disarmWatchdog f.disarmWatchdog := by
  unfold disarmWatchdog
  rw [h.watchdog, h.scheduler]
  exact h.update ..

theorem arm (h : Alike k e f) : Match (Alike k) e.armWatchdog f.armWatchdog := by
  unfold armWatchdog
  rw [h.watchdog, h.scheduler]
  cases e.watchdog.arm e.scheduler with
  | error err => exact .error err
  | ok p => exact .ok (h.update ..)

theorem cancel (h : Alike k e f) (id : Nat) :
    (f.cancel id).1 = (e.cancel id).1 ∧ Alike k (e.cancel id).2 (f.cancel id).2 := by
  unfold Engine.cancel
  rw [h.watchdog, h.scheduler]
  split
  · exact ⟨rfl, h.disarm⟩
  · exact ⟨rfl, h.update ..⟩

theorem take? (h : Alike k e f) : (e.take? = none ∧ f.take? = none) ∨
    ∃ event e' f', e.take? = some (event, e') ∧ f.take? = some (event, f') ∧ Alike k e' f' := by
  unfold Engine.take?
  rw [h.scheduler]
  cases e.scheduler.pop? with
  | none => exact .inl ⟨rfl, rfl⟩
  | some p =>
      exact .inr ⟨p.1, _, _, rfl, rfl, ⟨h.world, rfl, h.random⟩, h.rules, h.seed, h.limits,
        h.watchdog⟩

theorem heartbeat (h : Alike k e f) (ho : e.watchdog.heuristic.Observes) :
    Alike k e.heartbeat f.heartbeat := by
  obtain ⟨hwatchdog, hscheduler⟩ := e.watchdog.onHeartbeat_alike
    (ho k e.world f.world h.world) e.scheduler e.trace f.trace
  unfold Engine.heartbeat
  rw [h.watchdog, h.scheduler]
  dsimp only
  rw [hwatchdog, hscheduler]
  exact h.update ..

theorem process (h : Alike k e f) (event : Event) :
    (f.process event).1 = (e.process event).1 ∧
      Alike k (e.process event).2 (f.process event).2 := by
  obtain ⟨hstage, hreport⟩ := Execution.runEvent_alike h.stage e.rules e.limits event
  unfold Engine.process
  rw [h.rules, h.limits]
  exact ⟨hreport, hstage, rfl, h.seed, rfl, h.watchdog⟩

theorem handle (h : Alike k e f) (event : Event) :
    (f.handle event).1 = (e.handle event).1 ∧ Alike k (e.handle event).2 (f.handle event).2 := by
  obtain ⟨hreport, hafter⟩ := h.process event
  have hmoved : (f.process event).2.world.revision = f.world.revision ↔
      (e.process event).2.world.revision = e.world.revision := by
    rw [hafter.world.revision, h.world.revision, UInt64.add_left_inj]
  unfold Engine.handle
  dsimp only
  simp only [hmoved]
  split
  · exact ⟨hreport, hafter⟩
  · refine ⟨hreport, hafter.stage, hafter.rules, hafter.seed, hafter.limits, ?_⟩
    rw [hafter.watchdog]

end Alike

/-- Like engines stay in step while their supervisor cannot tell like worlds apart. -/
theorem lockstep_alike (k : UInt64) :
    Lockstep fun e f => Alike k e f ∧ e.watchdog.heuristic.Observes where
  scheduler h := h.1.scheduler
  config h := by rw [h.1.watchdog]
  take? h := by
    rcases h.1.take? with hnone | ⟨event, e', f', he, hf, h'⟩
    · exact .inl hnone
    · exact .inr ⟨event, e', f', he, hf, h', (take?_keeps he).heuristic ▸ h.2⟩
  heartbeat {e f} h := ⟨h.1.heartbeat h.2, e.heartbeat_keeps.heuristic ▸ h.2⟩
  handle {e f} h event :=
    ⟨(h.1.handle event).1, (h.1.handle event).2, (e.handle_keeps event).heuristic ▸ h.2⟩

end Engine

end RuleSim
