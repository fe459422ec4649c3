import RuleSim.Proofs.Engine.Heartbeat
import RuleSim.Proofs.World.Revision

namespace RuleSim.Engine

variable {e e' : Engine}

theorem heartbeat_world (e : Engine) : e.heartbeat.world = e.world := by
  rcases e.heartbeat_cases with ⟨-, h⟩ | ⟨-, -, h⟩ | ⟨-, h⟩
  · rw [h]
  · rw [h]
    rfl
  · rw [h]
    rfl

theorem handle_world (e : Engine) (event : Event) :
    (e.handle event).2.world = (e.process event).2.world := by
  rw [handle_snd]

theorem handle_unproductive {event : Event}
    (h : (e.process event).2.world.revision ≠ e.world.revision) :
    (e.handle event).2.watchdog.unproductive = 0 := by
  rw [handle_snd]
  exact if_neg h

/-- A step comes down to requests to the world, and if they move the revision, that is noticed. -/
theorem Stepped.progress {more : Nat} {log : List Event} (hs : Stepped e more log e') :
    World.Asks World.Request.Plain e.world e'.world ∧
      (e'.world.revision ≠ e.world.revision → e'.watchdog.unproductive = 0) := by
  induction hs with
  | dry => exact ⟨.refl _, fun h => absurd rfl h⟩
  | @event e e' event more ht hb =>
      obtain ⟨scheduler, -, rfl⟩ := take?_eq_some ht
      rw [handle_world]
      exact ⟨(process_changes _ event).asks, handle_unproductive⟩
  | last ht hb =>
      obtain ⟨scheduler, -, rfl⟩ := take?_eq_some ht
      rw [heartbeat_world]
      exact ⟨.refl _, fun h => absurd rfl h⟩
  | heartbeat ht hb hs ih =>
      obtain ⟨scheduler, -, rfl⟩ := take?_eq_some ht
      rwa [heartbeat_world] at ih

/-- The revision tells changes apart from rest. After fewer requests than there are revisions an
equal revision means that all entities are as they were, so that every snapshot is the same; what is
refused leaves the entities and the revision alone; and a step that changes an entity sets the count
of unproductive rounds back. -/
theorem revision_detects :
    (∀ (w : World) (rs : List World.Request), rs.length < 2 ^ 64 →
      (w.after rs).revision = w.revision →
        (w.after rs).state = w.state ∧ ∀ time, (w.after rs).snapshot time = w.snapshot time) ∧
      (∀ (w : World) (r : World.Request) (err : Error), w.attempt r = .error err →
        (w.perform r).state = w.state ∧ (w.perform r).revision = w.revision) ∧
      ∀ e : Engine, (∃ rs, e.step.2.world = e.world.after rs) ∧
        ∀ rs : List World.Request, rs.length < 2 ^ 64 → e.step.2.world = e.world.after rs →
          e.step.2.world.state ≠ e.world.state → e.step.2.watchdog.unproductive = 0 := by
  refine ⟨fun w rs hlen h => ?_, fun w r err h => ?_, fun e => ?_⟩
  · have hstate := World.state_after hlen h
    exact ⟨hstate, World.snapshot_of_state hstate⟩
  · rw [World.perform_of_error h]
    exact ⟨rfl, rfl⟩
  · obtain ⟨⟨rs, -, hrequests⟩, hprogress⟩ := e.step_stepped.progress
    refine ⟨⟨rs, hrequests⟩, fun rs hlen hrs hstate => hprogress fun h => hstate ?_⟩
    rw [hrs] at h ⊢
    exact World.state_after hlen h

def breeder : Engine :=
  let m : Module := { Module.empty "breeder" with
    rules := [{ trigger := .onEvent "breed", actions := [.spawn []] }] }
  (((new 0 {} {}).perform (.install m)).perform (.spawnAll [⟨none, none, [], []⟩])).perform
    (.setWatchdog { config := {}, heuristic := fun _ => [], unproductive := 1 })
    |>.perform (.schedule "breed" .zero {})

theorem breeder_revision_detects :
    breeder.watchdog.unproductive = 1 ∧ breeder.step.2.watchdog.unproductive = 0 ∧
      (breeder.world.after [.register ⟨"Health", []⟩, .setName (.ofNat 1) "hero"]).state =
        breeder.world.state := by
  have hworld : breeder.step.2.world = breeder.world.after [.create] := by with_unfolding_all rfl
  have hlive : breeder.step.2.world.state ≠ breeder.world.state := fun h =>
    absurd (congrArg (·.entities) h) (by decide +kernel)
  exact ⟨by decide +kernel,
    (revision_detects.2.2 breeder).2 [.create] (by decide) hworld hlive,
    (revision_detects.1 breeder.world [.register ⟨"Health", []⟩, .setName (.ofNat 1) "hero"]
      (by decide) (by decide +kernel)).1⟩

end RuleSim.Engine
