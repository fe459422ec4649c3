import RuleSim.Proofs.Engine.Kept
import RuleSim.Proofs.Simulation.Horizon

namespace RuleSim

def Engine.Request.OfCall : Engine.Request → Prop
  | .schedule .. | .cancel _ | .arm | .disarm | .step | .setTracing _ => True
  | _ => False

theorem Engine.Request.OfCall.keeping {r : Request} (h : r.OfCall) : r.Keeping := by
  cases r with
  | process event => trivial
  | _ => exact h

def Engine.Request.OfContent : Engine.Request → Prop
  | .install _ | .merge .. | .spawnAll _ => True
  | _ => False

namespace Simulation

structure Carries (R : Simulation → Simulation → Prop) : Prop where
  refl (s : Simulation) : R s s
  trans {s t u : Simulation} (h : R s t) (h' : R t u) : R s u
  entered (s : Simulation) (phase : Phase) : R s { s with phase }
  told (s : Simulation) (subscribers : Subscribers) : R s { s with subscribers }
  request (s : Simulation) {r : Engine.Request} (hr : r.OfCall) :
    R s { s with engine := s.engine.perform r }
  written {s : Simulation} {id : EntityId} {component field : String} {v : Value} {world : World}
    (h : s.world.setField id component field v = .ok world) :
    R s { s with engine := { s.engine with world } }
  drained (s : Simulation) :
    R s { s with engine := { s.engine with trace := s.engine.trace.drain.2 } }
  captured (s : Simulation) (e : TraceEvent) : R s (capture s.time s e)
  forgotten (s : Simulation) : R s { s with trace := s.trace.clear }

structure Drives (R : Simulation → Simulation → Prop) : Prop extends Carries R where
  content (s : Simulation) {r : Engine.Request} (hr : r.OfContent) :
    R s { s with engine := s.engine.perform r }
  listed (s : Simulation) (modules : List String) (initialEntities : List EntityDecl) :
    R s { s with modules, initialEntities }
  emptied (s : Simulation) : R s { s with engine := s.engine.modifyWorld World.clearEntities }
  restarted (s : Simulation) : R s { s with engine := s.engine.reset, trace := s.trace.clear }
  unloaded (s : Simulation) : R s { s with engine := s.engine.clear, trace := s.trace.clear }

def Along (R : Simulation → Simulation → Prop) {α : Type} (x : Host α) : Prop :=
  ∀ s, R s (final x s)

variable {α β : Type} {R : Simulation → Simulation → Prop}

namespace Carries

variable (hR : Carries R)
include hR

theorem pure (a : α) : Along R (pure a : Host α) := hR.refl

theorem throw (e : Error) : Along R (throw e : Host α) := hR.refl

theorem bind {x : Host α} {f : α → Host β} (hx : Along R x) (hf : ∀ a, Along R (f a)) :
    Along R (x >>= f) := final_bind_trans (R := R) hR.trans hx hf

omit hR in
theorem get_bind {f : Simulation → Host β} (hf : ∀ s, Along R (f s)) : Along R (get >>= f) :=
  fun s => hf s s

theorem notify (n : Notification) : Along R (notify n) := fun s => hR.told s _

theorem refuse (operation : String) : Along R (refuse operation : Host α) :=
  get_bind fun _ => hR.throw _

theorem requireNotRunning (operation : String) : Along R (requireNotRunning operation) := by
  refine get_bind fun s => ?_
  split
  · exact hR.refuse operation
  · exact hR.pure _

theorem enter (phase : Phase) : Along R (enter phase) := by
  intro s
  rw [Simulation.enter, final_get_bind]
  split
  · exact hR.trans (hR.entered s phase) (hR.notify _ { s with phase })
  · exact hR.refl s

theorem enter_notify (phase : Phase) (n : Notification) :
    Along R (do Simulation.enter phase; Simulation.notify n : Host Unit) :=
  hR.bind (hR.enter phase) fun _ => hR.notify n

theorem armWatchdog : Along R armWatchdog := by
  intro s
  have harm := hR.request s (r := .arm) trivial
  rw [Engine.perform] at harm
  rw [Simulation.armWatchdog, final_get_bind]
  cases ha : s.engine.armWatchdog with
  | ok engine =>
      rw [ha] at harm
      exact harm
  | error e => exact hR.refl s

theorem start : Along R start := by
  refine get_bind fun s => ?_
  split
  · exact hR.bind hR.armWatchdog fun _ => hR.enter _
  · exact hR.pure _

theorem pause : Along R pause := by
  refine get_bind fun s => ?_
  split
  · exact hR.enter _
  · exact hR.refuse _

theorem resume : Along R resume := by
  refine get_bind fun s => ?_
  split
  · exact hR.bind hR.armWatchdog fun _ => hR.enter _
  · exact hR.refuse _

theorem stop : Along R stop :=
  hR.bind (fun s => hR.request s (r := .disarm) trivial) fun _ => hR.enter _

theorem captures (time : Binary64) (events : List TraceEvent) {s : Simulation}
    (h : s.time = time) : R s (events.foldl (capture time) s) := by
  induction events generalizing s with
  | nil => exact hR.refl s
  | cons e events ih =>
      subst h
      exact hR.trans (hR.captured s e) (ih (s := capture s.time s e) rfl)

theorem flushTrace : Along R flushTrace := by
  intro s
  exact hR.trans (hR.drained s) (hR.captures s.time s.engine.trace.drain.1 rfl)

theorem failures (failures : List RuleFailure) :
    Along R (failures.forM fun f => Simulation.notify (.ruleFailed f)) := by
  induction failures with
  | nil => exact hR.pure _
  | cons f failures ih => exact hR.bind (hR.notify _) fun _ => ih

theorem step : Along R step := by
  intro s
  by_cases hr : s.Refuses
  · rw [final_of_error (step_of_refuses hr)]
    exact hR.refl s
  · rw [Simulation.step, final_get_bind, if_neg hr]
    dsimp only
    rw [final_set_bind]
    refine hR.trans (hR.request s (r := .step) trivial) (hR.bind hR.flushTrace (fun _ => ?_) _)
    cases s.engine.step.1 with
    | none => exact hR.bind (hR.notify _) fun _ => hR.pure _
    | some outcome =>
        refine hR.bind (hR.notify _) fun _ => hR.bind (hR.failures _) fun _ => ?_
        cases outcome.report.failures with
        | nil => exact hR.pure _
        | cons f failures => exact hR.throw _

theorem runFrom (horizon : Option Binary64) (summary : RunSummary) (remaining : Nat) :
    Along R (runFrom horizon summary remaining) := by
  induction remaining generalizing summary with
  | zero => exact hR.pure _
  | succ remaining ih =>
      refine get_bind fun s => ?_
      split
      · exact hR.pure _
      · refine hR.bind hR.step fun outcome => ?_
        cases outcome with
        | none => exact hR.pure _
        | some outcome => exact ih _

theorem run (limits : RunLimits) : Along R (run limits) :=
  hR.bind (hR.runFrom _ _ _) fun _ => get_bind fun _ => hR.pure _

theorem schedule (type : String) (delay : Binary64) (payload : Payload) :
    Along R (schedule type delay payload) := by
  intro s
  rw [Simulation.schedule, final_get_bind]
  dsimp only
  rw [final_set_bind]
  refine hR.trans (hR.request s (r := .schedule type delay payload) trivial) ?_
  split
  · exact hR.bind hR.armWatchdog (fun _ => hR.pure _) _
  · exact hR.refl _

theorem cancel (id : Nat) : Along R (cancel id) :=
  fun s => hR.request s (r := .cancel id) trivial

theorem setField (id : EntityId) (component field : String) (v : Value) :
    Along R (setField id component field v) := by
  intro s
  rw [Simulation.setField, final_get_bind]
  cases h : s.world.setField id component field v with
  | ok world => exact hR.written h
  | error e => exact hR.refl s

theorem setTracing (on : Bool) : Along R (setTracing on) :=
  fun s => hR.request s (r := .setTracing on) trivial

theorem subscribe (react : Nat → Notification → Reaction) : Along R (subscribe react) :=
  fun s => hR.told s _

theorem subscribeTrace (react : Nat → TraceRecord → Reaction) : Along R (subscribeTrace react) :=
  fun s => hR.trans (hR.request s (r := .setTracing true) trivial) (hR.told _ _)

theorem unsubscribe (id : Nat) : Along R (unsubscribe id) := fun s => hR.told s _

theorem teardown : Along R teardown := fun s =>
  hR.trans (hR.trans (hR.told s _) (hR.forgotten _))
    (hR.request _ (r := .setTracing s.config.trace.enabled) trivial)

end Carries

namespace Drives

variable (hR : Drives R)
include hR

theorem onEngine {x : EStateM Error Engine α} {r : Engine.Request} (hr : r.OfContent)
    (hx : ∀ e : Engine, e.perform r = final x e) : Along R (onEngine x) := by
  intro s
  have h := hR.content s hr
  rw [hx] at h
  rw [final, Simulation.onEngine]
  rw [final] at h
  cases hs : x s.engine with
  | ok a e =>
      rw [hs] at h
      exact h
  | error err e =>
      rw [hs] at h
      exact h

theorem load (m : Module) : Along R (load m) := by
  refine hR.bind (hR.requireNotRunning _) fun _ s => hR.trans (hR.unloaded s) ?_
  rw [final_modify_bind, final_get_bind]
  -- From here on there are no trace records to be dropped.
  have hclear : s.trace.clear.clear = s.trace.clear := rfl
  generalize s.trace.clear = trace at hclear
  have hinstall := hR.content { s with engine := s.engine.clear, trace } (r := .install m) trivial
  rw [Engine.perform, final] at hinstall
  dsimp only at hinstall ⊢
  cases hi : Engine.install m s.engine.clear with
  | ok report e =>
      rw [hi] at hinstall
      exact hR.trans (hR.trans hinstall (hR.listed _ [m.name] m.initialEntities))
        (hR.enter_notify .idle (.loaded m.name) _)
  | error err e =>
      rw [hi] at hinstall
      have hdown := hR.trans (hR.trans hinstall (hR.unloaded _)) (hR.listed _ [] [])
      rwa [hclear] at hdown

theorem setInitialEntities (ds : List EntityDecl) : Along R (setInitialEntities ds) := by
  refine hR.bind (hR.requireNotRunning _) fun _ => hR.bind (fun s => ?_) fun _ =>
    hR.onEngine (r := .spawnAll ds) trivial fun _ => rfl
  exact hR.trans (hR.emptied s) (hR.listed _ s.modules ds)

theorem merge (m : Module) (options : MergeOptions) : Along R (merge m options) := by
  refine hR.bind (hR.requireNotRunning _) fun _ =>
    hR.bind (hR.onEngine (r := .merge m options) trivial fun _ => rfl) fun report => ?_
  exact hR.bind (fun s => hR.listed s _ _) fun _ => hR.bind (hR.notify _) fun _ => hR.pure _

theorem reset : Along R reset := by
  refine hR.bind hR.restarted fun _ => Carries.get_bind fun s => ?_
  exact hR.bind (hR.onEngine (r := .spawnAll s.initialEntities) trivial fun _ => rfl) fun _ =>
    hR.enter_notify .idle .reset

end Drives

end Simulation

end RuleSim
