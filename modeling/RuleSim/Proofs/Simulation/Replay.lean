import RuleSim.Proofs.Engine.Alike
import RuleSim.Proofs.Simulation.Carried
import RuleSim.Proofs.Simulation.Lockstep

namespace RuleSim.Simulation

inductive Call where
  | start
  | pause
  | resume
  | stop
  | step
  | run (limits : RunLimits)
  | schedule (type : String) (delay : Binary64) (payload : Payload)
  | cancel (id : Nat)
  | setField (id : EntityId) (component field : String) (v : Value)
  | subscribe (react : Nat → Notification → Reaction)
  | subscribeTrace (react : Nat → TraceRecord → Reaction)
  | unsubscribe (id : Nat)
  | setTracing (on : Bool)
  | teardown

inductive Answer where
  | done
  | stepped (outcome : Option StepOutcome)
  | ran (summary : RunSummary)
  | scheduled (id : Nat)
  | cancelled (found : Bool)

def Call.isObserving : Call → Bool
  | subscribe _ | subscribeTrace _ | unsubscribe _ | setTracing _ | teardown => true
  | _ => false

def perform : Call → Host Answer
  | .start => do
    Simulation.start
    return .done
  | .pause => do
    Simulation.pause
    return .done
  | .resume => do
    Simulation.resume
    return .done
  | .stop => do
    Simulation.stop
    return .done
  | .step => do return .stepped (← Simulation.step)
  | .run limits => do return .ran (← Simulation.run limits)
  | .schedule type delay payload => do
    return .scheduled (← Simulation.schedule type delay payload)
  | .cancel id => do return .cancelled (← Simulation.cancel id)
  | .setField id component field v => do
    Simulation.setField id component field v
    return .done
  | .subscribe react => do
    let _ ← Simulation.subscribe react
    return .done
  | .subscribeTrace react => do
    let _ ← Simulation.subscribeTrace react
    return .done
  | .unsubscribe id => do
    let _ ← Simulation.unsubscribe id
    return .done
  | .setTracing on => do
    Simulation.setTracing on
    return .done
  | .teardown => do
    Simulation.teardown
    return .done

def answer (s : Simulation) (c : Call) : Except Error Answer :=
  match perform c s with
  | .ok a _ => .ok a
  | .error e _ => .error e

def answers : Simulation → List Call → List (Except Error Answer)
  | _, [] => []
  | s, c :: calls => s.answer c :: answers (final (perform c) s) calls

def after (s : Simulation) (calls : List Call) : Simulation :=
  calls.foldl (fun s c => final (perform c) s) s

theorem Lockstep.perform {R : Simulation → Simulation → Prop} (hR : Lockstep R) {c : Call}
    (hc : c.isObserving = false) : Respects R (perform c) := by
  cases c with
  | start => exact hR.start.bind fun _ => respects_pure _
  | pause => exact hR.pause.bind fun _ => respects_pure _
  | resume => exact hR.resume.bind fun _ => respects_pure _
  | stop => exact hR.stop.bind fun _ => respects_pure _
  | step => exact hR.step.bind fun _ => respects_pure _
  | run limits => exact (hR.run limits).bind fun _ => respects_pure _
  | schedule type delay payload =>
      exact (hR.scheduleEvent type delay payload).bind fun _ => respects_pure _
  | cancel id => exact (hR.cancelEvent id).bind fun _ => respects_pure _
  | setField id component field v =>
      exact (hR.setField id component field v).bind fun _ => respects_pure _
  | subscribe | subscribeTrace | unsubscribe | setTracing | teardown => cases hc

theorem Carries.perform {R : Simulation → Simulation → Prop} (hR : Carries R) (c : Call) :
    Along R (perform c) := by
  cases c with
  | start => exact hR.bind hR.start fun _ => hR.pure _
  | pause => exact hR.bind hR.pause fun _ => hR.pure _
  | resume => exact hR.bind hR.resume fun _ => hR.pure _
  | stop => exact hR.bind hR.stop fun _ => hR.pure _
  | step => exact hR.bind hR.step fun _ => hR.pure _
  | run limits => exact hR.bind (hR.run limits) fun _ => hR.pure _
  | schedule type delay payload =>
      exact hR.bind (hR.schedule type delay payload) fun _ => hR.pure _
  | cancel id => exact hR.bind (hR.cancel id) fun _ => hR.pure _
  | setField id component field v =>
      exact hR.bind (hR.setField id component field v) fun _ => hR.pure _
  | subscribe react => exact hR.bind (hR.subscribe react) fun _ => hR.pure _
  | subscribeTrace react => exact hR.bind (hR.subscribeTrace react) fun _ => hR.pure _
  | unsubscribe id => exact hR.bind (hR.unsubscribe id) fun _ => hR.pure _
  | setTracing on => exact hR.bind (hR.setTracing on) fun _ => hR.pure _
  | teardown => exact hR.bind hR.teardown fun _ => hR.pure _

structure Keeps (s s' : Simulation) : Prop where
  config : s'.config = s.config
  modules : s'.modules = s.modules
  initialEntities : s'.initialEntities = s.initialEntities
  engine : s.engine.Keeps s'.engine

theorem Keeps.refl (s : Simulation) : Keeps s s := ⟨rfl, rfl, rfl, .refl _⟩

theorem Keeps.trans {s s' s'' : Simulation} (h : Keeps s s') (h' : Keeps s' s'') : Keeps s s'' :=
  ⟨h'.config.trans h.config, h'.modules.trans h.modules,
    h'.initialEntities.trans h.initialEntities, h.engine.trans h'.engine⟩

theorem keeps_carries : Carries Keeps where
  refl := .refl
  trans := .trans
  entered _ _ := ⟨rfl, rfl, rfl, .refl _⟩
  told _ _ := ⟨rfl, rfl, rfl, .refl _⟩
  request s _ hr := ⟨rfl, rfl, rfl, s.engine.perform_keeps hr.keeping⟩
  written {s id component field v _} h := ⟨rfl, rfl, rfl,
    s.engine.keeps_of_world (World.Edit.setField id component field v h).asks ..⟩
  drained s := ⟨rfl, rfl, rfl, s.engine.keeps_of_world (.refl _) ..⟩
  captured _ _ := ⟨rfl, rfl, rfl, .refl _⟩
  forgotten _ := ⟨rfl, rfl, rfl, .refl _⟩

theorem after_keeps (s : Simulation) (calls : List Call) : Keeps s (s.after calls) := by
  induction calls generalizing s with
  | nil => exact .refl s
  | cons c calls ih => exact (keeps_carries.perform c s).trans (ih _)

structure Alike (k : UInt64) (s t : Simulation) : Prop where
  config : t.config = s.config
  engine : s.engine.Alike k t.engine
  phase : t.phase = s.phase
  modules : t.modules = s.modules
  initialEntities : t.initialEntities = s.initialEntities

theorem Alike.snapshot {k : UInt64} {s t : Simulation} (h : Alike k s t) :
    t.snapshot = s.snapshot := by
  unfold Simulation.snapshot Simulation.world Simulation.time Engine.time
  rw [h.engine.scheduler, h.engine.world.snapshot]

structure Twins (k : UInt64) (s t : Simulation) : Prop where
  alike : Alike k s t
  observes : s.engine.watchdog.heuristic.Observes

variable {k : UInt64} {s t : Simulation}

theorem Twins.onEngine (h : Twins k s t) {e f : Engine} (hef : e.Alike k f)
    (hk : s.engine.Keeps e) : Twins k { s with engine := e } { t with engine := f } :=
  ⟨⟨h.alike.config, hef, h.alike.phase, h.alike.modules, h.alike.initialEntities⟩,
    hk.heuristic ▸ h.observes⟩

theorem Twins.told (h : Twins k s t) (sink sink' : TraceSink) (trace trace' : TraceBuffer)
    (subscribers subscribers' : Subscribers) :
    Twins k { s with engine := { s.engine with trace := sink }, trace, subscribers }
      { t with
        engine := { t.engine with trace := sink' }
        trace := trace'
        subscribers := subscribers' } :=
  have he := h.alike.engine
  ⟨⟨h.alike.config, ⟨⟨he.world, he.scheduler, he.random⟩, he.rules, he.seed, he.limits,
    he.watchdog⟩, h.alike.phase, h.alike.modules, h.alike.initialEntities⟩, h.observes⟩

theorem respects_armWatchdog : Respects (Twins k) armWatchdog := by
  intro s t h
  rw [armWatchdog, get_bind, get_bind]
  have harm := h.alike.engine.arm
  cases ha : s.engine.armWatchdog with
  | ok e =>
      rw [ha] at harm
      generalize t.engine.armWatchdog = x at harm
      cases harm with
      | ok hef => exact .ok _ (h.onEngine hef (Engine.armWatchdog_keeps ha))
  | error err =>
      rw [ha] at harm
      generalize t.engine.armWatchdog = x at harm
      cases harm with
      | error => exact .error err h

theorem respects_setField (id : EntityId) (component field : String) (v : Value) :
    Respects (Twins k) (setField id component field v) := by
  intro s t h
  have he := h.alike.engine
  have hset := he.world.setField id component field v
  unfold setField Simulation.world
  rw [get_bind, get_bind]
  generalize ht : t.engine.world.setField id component field v = y at hset
  cases hs : s.engine.world.setField id component field v with
  | ok w =>
      rw [hs] at hset
      cases hset with
      | ok hw =>
          exact .ok _ (h.onEngine
            ⟨⟨hw, he.scheduler, he.random⟩, he.rules, he.seed, he.limits, he.watchdog⟩
            (s.engine.keeps_of_world (World.Edit.setField id component field v hs).asks ..))
  | error e =>
      rw [hs] at hset
      cases hset with
      | error => exact .error e h

theorem lockstep_twins (k : UInt64) : Lockstep (Twins k) where
  phase h := h.alike.phase
  scheduler h := h.alike.engine.scheduler
  setPhase h phase :=
    ⟨⟨h.alike.config, h.alike.engine, rfl, h.alike.modules, h.alike.initialEntities⟩, h.observes⟩
  notify _ := respects_modify fun _ _ h => h.told ..
  flushTrace s t h := by
    obtain ⟨_, _, _, hs⟩ := flushTrace_eq s
    obtain ⟨_, _, _, ht⟩ := flushTrace_eq t
    rw [hs, ht]
    exact .ok _ (h.told ..)
  arm := respects_armWatchdog
  disarm s t h := .ok _ (h.onEngine h.alike.engine.disarm s.engine.disarmWatchdog_keeps)
  engineStep {s t} h := by
    obtain ⟨houtcome, hengine⟩ := (Engine.lockstep_alike k).step ⟨h.alike.engine, h.observes⟩
    exact ⟨houtcome, h.onEngine hengine.1 s.engine.step_keeps⟩
  schedule {s t} h type delay payload := by
    obtain ⟨hid, hengine⟩ := h.alike.engine.schedule type delay payload
    exact ⟨hid, h.onEngine hengine (s.engine.keeps_of_world (.refl _) ..)⟩
  cancel {s t} h id := by
    obtain ⟨hfound, hengine⟩ := h.alike.engine.cancel id
    exact ⟨hfound, h.onEngine hengine (s.engine.cancel_keeps id)⟩
  setField := respects_setField

theorem respects_perform (c : Call) : Respects (Twins k) (perform c) := by
  cases hc : c.isObserving with
  | false => exact (lockstep_twins k).perform hc
  | true =>
      cases c with
      | subscribe | subscribeTrace | unsubscribe | setTracing | teardown =>
          exact fun s t h => .ok _ (h.told ..)
      | _ => cases hc

/-- From there on all calls are answered alike. -/
theorem Twins.answers (h : Twins k s t) (calls : List Call) :
    t.answers calls = s.answers calls ∧ Twins k (s.after calls) (t.after calls) := by
  induction calls generalizing s t with
  | nil => exact ⟨rfl, h⟩
  | cons c calls ih =>
      have hc := respects_perform c s t h
      obtain ⟨hanswers, hafter⟩ := ih hc.final
      have hanswer : t.answer c = s.answer c := by
        unfold answer
        generalize perform c s = x, perform c t = y at hc
        cases hc <;> rfl
      exact ⟨by rw [Simulation.answers, Simulation.answers, hanswer, hanswers], hafter⟩

end RuleSim.Simulation
