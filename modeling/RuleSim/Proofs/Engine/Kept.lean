import RuleSim.Proofs.Engine.Heartbeat
import RuleSim.Proofs.World.Requests

namespace RuleSim

namespace Engine

structure Keeps (e e' : Engine) : Prop where
  rules : e'.rules = e.rules
  seed : e'.seed = e.seed
  limits : e'.limits = e.limits
  config : e'.watchdog.config = e.watchdog.config
  heuristic : e'.watchdog.heuristic = e.watchdog.heuristic
  world : World.Asks World.Request.Plain e.world e'.world

theorem Keeps.refl (e : Engine) : Keeps e e := ⟨rfl, rfl, rfl, rfl, rfl, .refl _⟩

theorem Keeps.trans {e e' e'' : Engine} (h : Keeps e e') (h' : Keeps e' e'') : Keeps e e'' :=
  ⟨h'.rules.trans h.rules, h'.seed.trans h.seed, h'.limits.trans h.limits,
    h'.config.trans h.config, h'.heuristic.trans h.heuristic, h.world.trans h'.world⟩

/-- Neither the queue nor the random source nor what is traced counts, nor what the supervisor
remembers. -/
theorem keeps_of_world (e : Engine) {w : World}
    (hw : World.Asks World.Request.Plain e.world w) (s : Scheduler) (r : Random)
    (t : TraceSink) (heartbeat : Option Nat) (unproductive : Nat) :
    Keeps e { e with
      world := w, scheduler := s, random := r, trace := t
      watchdog := { e.watchdog with heartbeat, unproductive } } :=
  ⟨rfl, rfl, rfl, rfl, rfl, hw⟩

theorem disarmWatchdog_keeps (e : Engine) : Keeps e e.disarmWatchdog := by
  rw [disarmWatchdog_eq]
  exact e.keeps_of_world (.refl _) ..

theorem armWatchdog_keeps {e e' : Engine} (h : e.armWatchdog = .ok e') : Keeps e e' := by
  rcases e.armWatchdog_cases with ⟨-, ha⟩ | ⟨-, -, ha⟩
  · obtain rfl := Except.ok.inj (ha.symm.trans h)
    exact .refl e
  · obtain rfl := Except.ok.inj (ha.symm.trans h)
    exact e.keeps_of_world (.refl _) ..

theorem cancel_keeps (e : Engine) (id : Nat) : Keeps e (e.cancel id).2 := by
  rcases e.cancel_cases id with ⟨-, h⟩ | ⟨-, h⟩
  · rw [h]
    exact e.disarmWatchdog_keeps
  · rw [h]
    exact e.keeps_of_world (.refl _) ..

theorem take?_keeps {e e' : Engine} {event : Event} (h : e.take? = some (event, e')) :
    Keeps e e' := by
  obtain ⟨scheduler, -, rfl⟩ := take?_eq_some h
  exact e.keeps_of_world (.refl _) ..

theorem heartbeat_keeps (e : Engine) : Keeps e e.heartbeat := by
  rcases e.heartbeat_cases with ⟨-, h⟩ | ⟨-, -, h⟩ | ⟨-, h⟩
  · rw [h]
    exact .refl e
  · rw [h]
    exact e.disarmWatchdog_keeps
  · rw [h]
    exact e.keeps_of_world (.refl _) ..

theorem process_keeps (e : Engine) (event : Event) : Keeps e (e.process event).2 :=
  ⟨rfl, rfl, rfl, rfl, rfl, (e.process_changes event).asks⟩

theorem handle_keeps (e : Engine) (event : Event) : Keeps e (e.handle event).2 := by
  rw [handle_snd]
  exact ⟨rfl, rfl, rfl, rfl, rfl, (e.process_keeps event).world⟩

theorem Stepped.keeps {e e' : Engine} {more : Nat} {log : List Event}
    (hs : Stepped e more log e') : Keeps e e' :=
  hs.along (R := fun e _ f => Keeps e f) .refl .trans take?_keeps heartbeat_keeps handle_keeps

theorem step_keeps (e : Engine) : Keeps e e.step.2 := e.step_stepped.keeps

def Request.Keeping : Request → Prop
  | .schedule .. | .cancel _ | .arm | .disarm | .setTracing _ | .step | .process _ => True
  | _ => False

theorem perform_keeps (e : Engine) {r : Request} (hr : r.Keeping) : Keeps e (e.perform r) := by
  cases r with
  | schedule | setTracing => exact e.keeps_of_world (.refl _) ..
  | cancel id => exact e.cancel_keeps id
  | arm =>
      rw [perform]
      cases h : e.armWatchdog with
      | ok e' => exact armWatchdog_keeps h
      | error err => exact .refl e
  | disarm => exact e.disarmWatchdog_keeps
  | step => exact e.step_keeps
  | process event => exact e.process_keeps event
  | install | merge | spawnAll | setWatchdog | modifyWorld | reset | clear => exact hr.elim

end Engine

end RuleSim
