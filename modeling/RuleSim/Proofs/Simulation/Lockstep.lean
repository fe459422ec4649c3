import RuleSim.Proofs.Respects
import RuleSim.Proofs.Simulation.Horizon

namespace RuleSim.Simulation

variable {α : Type}

structure Lockstep (R : Simulation → Simulation → Prop) : Prop where
  phase {s t : Simulation} (h : R s t) : t.phase = s.phase
  scheduler {s t : Simulation} (h : R s t) : t.engine.scheduler = s.engine.scheduler
  setPhase {s t : Simulation} (h : R s t) (phase : Phase) : R { s with phase } { t with phase }
  notify (n : Notification) : Respects R (notify n)
  flushTrace : Respects R flushTrace
  arm : Respects R armWatchdog
  disarm : Respects R (modifyEngine Engine.disarmWatchdog)
  engineStep {s t : Simulation} (h : R s t) : t.engine.step.1 = s.engine.step.1 ∧
    R { s with engine := s.engine.step.2 } { t with engine := t.engine.step.2 }
  schedule {s t : Simulation} (h : R s t) (type : String) (delay : Binary64) (payload : Payload) :
    (t.engine.schedule type delay payload).1 = (s.engine.schedule type delay payload).1 ∧
      R { s with engine := (s.engine.schedule type delay payload).2 }
        { t with engine := (t.engine.schedule type delay payload).2 }
  cancel {s t : Simulation} (h : R s t) (id : Nat) :
    (t.engine.cancel id).1 = (s.engine.cancel id).1 ∧
      R { s with engine := (s.engine.cancel id).2 } { t with engine := (t.engine.cancel id).2 }
  setField (id : EntityId) (component field : String) (v : Value) :
    Respects R (setField id component field v)

namespace Lockstep

variable {R : Simulation → Simulation → Prop} (hR : Lockstep R)
include hR

theorem refuse (operation : String) : Respects R (refuse operation : Host α) :=
  respects_get_bind (fun s t h => by rw [hR.phase h]) fun _ => respects_throw _

theorem requireNotRunning (operation : String) : Respects R (requireNotRunning operation) := by
  refine respects_get_bind (fun s t h => by rw [hR.phase h]) fun s => ?_
  split
  · exact hR.refuse operation
  · exact respects_pure _

theorem enter (phase : Phase) : Respects R (enter phase) := by
  intro s t h
  rw [Simulation.enter, get_bind, get_bind, hR.phase h]
  split
  · rw [set_bind, set_bind]
    exact hR.notify _ _ _ (hR.setPhase h phase)
  · exact .ok _ h

theorem start : Respects R start := by
  refine respects_get_bind (fun s t h => by rw [hR.phase h]) fun s => ?_
  split
  · exact hR.arm.bind fun _ => hR.enter _
  · exact respects_pure _

theorem pause : Respects R pause := by
  refine respects_get_bind (fun s t h => by rw [hR.phase h]) fun s => ?_
  split
  · exact hR.enter _
  · exact hR.refuse _

theorem resume : Respects R resume := by
  refine respects_get_bind (fun s t h => by rw [hR.phase h]) fun s => ?_
  split
  · exact hR.arm.bind fun _ => hR.enter _
  · exact hR.refuse _

theorem stop : Respects R stop := hR.disarm.bind fun _ => hR.enter _

theorem failures (failures : List RuleFailure) :
    Respects R (failures.forM fun f => Simulation.notify (.ruleFailed f)) := by
  induction failures with
  | nil => exact respects_pure _
  | cons f failures ih => exact (hR.notify _).bind fun _ => ih

theorem step : Respects R step := by
  intro s t h
  by_cases hr : s.Refuses
  · have hr' : t.Refuses := by rwa [Refuses, hR.phase h]
    rw [step_of_refuses hr, step_of_refuses hr', hR.phase h]
    exact .error _ h
  · have hr' : ¬ t.Refuses := by rwa [Refuses, hR.phase h]
    obtain ⟨houtcome, hset⟩ := hR.engineStep h
    have htime : t.engine.step.2.time = s.engine.step.2.time :=
      congrArg Scheduler.now (hR.scheduler hset)
    rw [Simulation.step, get_bind, get_bind, if_neg hr, if_neg hr']
    dsimp only
    rw [set_bind, set_bind, houtcome, htime]
    refine (hR.flushTrace.bind fun _ => ?_) _ _ hset
    cases s.engine.step.1 with
    | none => exact (hR.notify _).bind fun _ => respects_pure _
    | some outcome =>
        refine (hR.notify _).bind fun _ => (hR.failures _).bind fun _ => ?_
        cases outcome.report.failures with
        | nil => exact respects_pure _
        | cons f failures => exact respects_throw _

theorem runFrom (horizon : Option Binary64) (summary : RunSummary) (remaining : Nat) :
    Respects R (runFrom horizon summary remaining) := by
  induction remaining generalizing summary with
  | zero => exact respects_pure _
  | succ remaining ih =>
      refine respects_get_bind (fun s t h => ?_) fun s => ?_
      · have hpast : t.isPast horizon = s.isPast horizon := by
          unfold isPast
          rw [hR.scheduler h]
        rw [hpast]
      · split
        · exact respects_pure _
        · refine hR.step.bind fun outcome => ?_
          cases outcome with
          | none => exact respects_pure _
          | some outcome => exact ih _

theorem run (limits : RunLimits) : Respects R (run limits) := by
  apply (hR.runFrom _ _ _).bind
  intro summary
  refine respects_get_bind (fun s t h => ?_) fun _ => respects_pure _
  rw [time, time, Engine.time, Engine.time, hR.scheduler h]

theorem scheduleEvent (type : String) (delay : Binary64) (payload : Payload) :
    Respects R (Simulation.schedule type delay payload) := by
  intro s t h
  obtain ⟨hid, hset⟩ := hR.schedule h type delay payload
  rw [Simulation.schedule, get_bind, get_bind]
  dsimp only
  rw [set_bind, set_bind, hid]
  by_cases hr : s.phase = .running
  · rw [if_pos hr, if_pos ((hR.phase h).trans hr)]
    exact (hR.arm.bind fun _ => respects_pure _) _ _ hset
  · rw [if_neg hr, if_neg fun hr' => hr ((hR.phase h).symm.trans hr')]
    exact .ok _ hset

theorem cancelEvent (id : Nat) : Respects R (Simulation.cancel id) := by
  intro s t h
  obtain ⟨hfound, hset⟩ := hR.cancel h id
  rw [Simulation.cancel, get_bind, get_bind]
  dsimp only
  rw [set_bind, set_bind, hfound]
  exact .ok _ hset

end Lockstep

end RuleSim.Simulation
