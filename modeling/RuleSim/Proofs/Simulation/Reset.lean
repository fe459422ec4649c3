import RuleSim.Proofs.Simulation.Replay

namespace RuleSim

namespace World

variable {w : World}

theorem Bare.sound (h : Bare w) : Sound w where
  indexed e c := by simp [h.components, ComponentStore.has, ComponentStore.get?, h.instances]
  records e c hc := by simp [ComponentStore.has, ComponentStore.get?, h.instances] at hc
  bound p hp := by simp [h.bound] at hp
  names p hp := by simp [h.names] at hp

theorem Bare.declared (h : Bare w) (m : Module) : Bare (Content.declared m w) := by
  unfold Content.declared
  induction m.components generalizing w with
  | nil => exact h
  | cons d ds ih =>
      exact ih (w := w.register (.ofDecl d))
        ⟨h.entities, h.instances, h.components, h.bound, h.names⟩

theorem clear_bare (w : World) : Bare w.clear := ⟨rfl, fun _ => rfl, fun _ => rfl, rfl, rfl⟩

end World

theorem Content.install_ok {m : Module} {c c' : Content} {report : InstallReport}
    (h : install m c = .ok report c') :
    ∃ ids, World.spawnAll m.initialEntities (declared m c.world) = .ok ids c'.world := by
  unfold install at h
  rw [get_bind] at h
  dsimp only at h
  rw [set_bind] at h
  obtain ⟨ids, c'', hspawn, hpure⟩ := bind_ok h
  cases hpure
  obtain ⟨w, hids, rfl⟩ := onWorld_ok hspawn
  exact ⟨ids, hids⟩

namespace Engine

theorem onContent_ok {α : Type} {x : EStateM Error Content α} {e e' : Engine} {a : α}
    (h : onContent x e = .ok a e') : ∃ c, x ⟨e.world, e.rules⟩ = .ok a c ∧
      e' = { e with world := c.world, rules := c.rules } := by
  unfold onContent at h
  cases hs : x ⟨e.world, e.rules⟩ with
  | ok b c =>
      rw [hs] at h
      cases h
      exact ⟨c, rfl, rfl⟩
  | error err c =>
      rw [hs] at h
      cases h

theorem spawnAll_ok {ds : List EntityDecl} {e : Engine} {ids : List EntityId} {w : World}
    (h : World.spawnAll ds e.world = .ok ids w) :
    Engine.spawnAll ds e = .ok ids { e with world := w } := by
  unfold Engine.spawnAll onContent Content.onWorld
  dsimp only
  rw [h]

end Engine

namespace Simulation

/-- Nothing has happened yet: nothing was queued, the random source is at its seed, the supervisor
is unarmed, and the world has the initial entities as they were created. -/
structure Fresh (s : Simulation) : Prop where
  scheduler : s.engine.scheduler = .empty
  random : s.engine.random = Random.ofSeed s.engine.seed
  heartbeat : s.engine.watchdog.heartbeat = none
  unproductive : s.engine.watchdog.unproductive = 0
  phase : s.phase = .idle
  records : s.trace.records = []
  world : ∃ w ids, World.Bare w ∧ World.spawnAll s.initialEntities w = .ok ids s.engine.world

theorem Fresh.sound {s : Simulation} (h : s.Fresh) : s.engine.world.Sound := by
  obtain ⟨w, ids, hw, hspawn⟩ := h.world
  have hk := (w.spawnAll_asks s.initialEntities).keeps
  rw [final_of_ok hspawn] at hk
  exact hk.sound hw.sound

theorem enter_eq (phase : Phase) (s : Simulation) :
    ∃ subscribers, enter phase s = .ok ⟨⟩ { s with phase, subscribers } := by
  unfold enter
  rw [get_bind]
  by_cases h : s.phase = phase
  · subst h
    exact ⟨s.subscribers, if_neg (not_not.mpr rfl) ▸ rfl⟩
  · rw [if_pos h]
    exact ⟨_, rfl⟩

theorem enter_notify_eq (phase : Phase) (n : Notification) (s : Simulation) :
    ∃ subscribers, (do enter phase; notify n : Host Unit) s =
      .ok ⟨⟩ { s with phase, subscribers } := by
  obtain ⟨subscribers, h⟩ := enter_eq phase s
  rw [bind_of_ok h]
  exact ⟨_, rfl⟩

theorem load_fresh {m : Module} {s₀ s : Simulation} (h : load m s₀ = .ok () s) : s.Fresh := by
  unfold load at h
  obtain ⟨⟨⟩, s₁, -, h⟩ := bind_ok h
  obtain ⟨⟨⟩, s₂, hclear, h⟩ := bind_ok h
  cases hclear
  rw [get_bind] at h
  dsimp only at h
  cases hi : Engine.install m s₁.engine.clear with
  | error e engine =>
      rw [hi] at h
      cases h
  | ok report engine =>
      obtain ⟨c, hinstall, rfl⟩ := Engine.onContent_ok hi
      obtain ⟨ids, hspawn⟩ := Content.install_ok hinstall
      rw [hi] at h
      dsimp only at h
      rw [set_bind] at h
      obtain ⟨subscribers, henter⟩ := enter_notify_eq .idle (.loaded m.name) _
      cases h.symm.trans henter
      exact ⟨rfl, rfl, rfl, rfl, rfl, rfl, _, ids, (World.clear_bare _).declared m, hspawn⟩

theorem onEngine_ok {α : Type} {x : EStateM Error Engine α} {s t : Simulation} {a : α}
    (h : onEngine x s = .ok a t) : ∃ e, x s.engine = .ok a e ∧ t = { s with engine := e } := by
  unfold onEngine at h
  cases hx : x s.engine with
  | ok b e =>
      rw [hx] at h
      cases h
      exact ⟨e, rfl, rfl⟩
  | error err e =>
      rw [hx] at h
      cases h

/-- A reset succeeds if the initial entities can be created anew. -/
theorem reset_of_ok {s : Simulation} {ids : List EntityId} {w : World}
    (h : World.spawnAll s.initialEntities s.world.clearEntities = .ok ids w) :
    ∃ subscribers, reset s = .ok () { s with
      engine := { s.engine.reset with world := w }, trace := s.trace.clear, phase := .idle
      subscribers } := by
  have hspawn : Engine.spawnAll s.initialEntities s.engine.reset =
      .ok ids { s.engine.reset with world := w } := Engine.spawnAll_ok h
  obtain ⟨subscribers, henter⟩ := enter_notify_eq .idle .reset
    { s with engine := { s.engine.reset with world := w }, trace := s.trace.clear }
  refine ⟨subscribers, ?_⟩
  rw [reset, bind_of_ok (x := modify _) rfl, get_bind]
  refine (bind_of_ok (a := ids) ?_ _).trans henter
  unfold onEngine
  dsimp only
  rw [hspawn]

theorem reset_ok {s t : Simulation} (h : reset s = .ok () t) :
    ∃ ids, World.spawnAll s.initialEntities s.world.clearEntities = .ok ids t.world := by
  unfold reset at h
  obtain ⟨⟨⟩, s₁, hclear, h⟩ := bind_ok h
  cases hclear
  rw [get_bind] at h
  obtain ⟨ids, s₂, hspawn, h⟩ := bind_ok h
  obtain ⟨e, hengine, rfl⟩ := onEngine_ok hspawn
  obtain ⟨c, hcontent, rfl⟩ := Engine.onContent_ok hengine
  obtain ⟨w, hw, rfl⟩ := Content.onWorld_ok hcontent
  obtain ⟨subscribers, henter⟩ := enter_notify_eq .idle .reset _
  cases h.symm.trans henter
  exact ⟨ids, hw⟩

/-- The reset does not fail, since the initial entities were created once before. -/
theorem reset_fresh {s t : Simulation} (h : s.Fresh) (hk : Keeps s t) :
    ∃ u k, reset t = .ok () u ∧ Alike k s u ∧ u.Fresh := by
  obtain ⟨w, ids, hbare, hspawn⟩ := h.world
  have hcleared := (hk.engine.world.keeps.sound h.sound).clearEntities_bare
  have hschemas : t.engine.world.clearEntities.components.schemas = w.components.schemas := by
    have hw := (w.spawnAll_asks s.initialEntities).keeps.schemas
    rw [final_of_ok hspawn] at hw
    exact (World.removeEntities_schemas ..).trans (hk.engine.world.keeps.schemas.trans hw)
  have hagree := World.respects_spawnAll s.initialEntities _ _ (hbare.alike hcleared hschemas)
  rw [hspawn] at hagree
  obtain ⟨v, hv, halike⟩ := hagree.of_ok
  have hrespawn : World.spawnAll t.initialEntities t.world.clearEntities = .ok ids v := by
    rw [hk.initialEntities]
    exact hv
  obtain ⟨subscribers, hreset⟩ := reset_of_ok hrespawn
  have he := hk.engine
  have hwatchdog : t.engine.watchdog.forget = s.engine.watchdog := by
    rw [Watchdog.forget, he.config, he.heuristic, ← h.heartbeat, ← h.unproductive]
  refine ⟨_, _, hreset, ⟨hk.config, ⟨⟨halike, h.scheduler.symm, ?_⟩, he.rules, he.seed,
    he.limits, hwatchdog⟩, h.phase.symm, hk.modules, hk.initialEntities⟩, ?_⟩
  · rw [h.random, ← he.seed]
    rfl
  · exact ⟨rfl, rfl, rfl, rfl, rfl, rfl, _, ids, hcleared, hrespawn⟩

/-- However a host uses a loaded simulation, and whatever the rules do, a reset succeeds. It leads
to a fresh state that differs from the one after the load in nothing but the revision of the world
and what was traced and subscribed. As long as the heuristic of the supervisor cannot tell the
worlds apart either, the same calls get the same answers again and lead to like states again. -/
theorem reset_restores {m : Module} {s₀ s₁ : Simulation} (h : load m s₀ = .ok () s₁)
    (calls : List Call) :
    ∃ s₂ k, reset (s₁.after calls) = .ok () s₂ ∧ Fresh s₂ ∧ Alike k s₁ s₂ ∧
      (s₁.engine.watchdog.heuristic.Observes → ∀ replay : List Call,
        s₂.answers replay = s₁.answers replay ∧
          (s₂.after replay).snapshot = (s₁.after replay).snapshot ∧
          Alike k (s₁.after replay) (s₂.after replay)) := by
  obtain ⟨s₂, k, hreset, halike, hfresh⟩ := reset_fresh (load_fresh h) (s₁.after_keeps calls)
  refine ⟨s₂, k, hreset, hfresh, halike, fun ho replay => ?_⟩
  obtain ⟨hanswers, hafter⟩ := Twins.answers ⟨halike, ho⟩ replay
  exact ⟨hanswers, hafter.alike.snapshot, hafter.alike⟩

def cliff : Module where
  version := "1.0"
  name := "cliff"
  components := [{ name := "Health", fields := [⟨"points", .integer, some (.int 10)⟩] }]
  rules := [{ trigger := .onEvent "fall", actions := [.despawn (.named "entity")] }]
  initialState := some [⟨none, some "hero", [("Health", [])], []⟩]

def accident : List Call :=
  [.start, .setField (.ofNat 0) "Health" "points" (.int 3), .schedule "fall" .zero {}, .step, .stop]

theorem cliff_reset_restores : ∃ s₁, load cliff (new {}) = .ok () s₁ ∧
    s₁.world.entityIds = [.ofNat 0] ∧ (s₁.after accident).world.entityIds = [] ∧
    ∃ s₂, reset (s₁.after accident) = .ok () s₂ ∧ s₂.world.entityIds = [.ofNat 0] ∧
      s₂.answers accident = s₁.answers accident := by
  have hload : load cliff (new {}) = .ok () (final (load cliff) (new {})) := by rfl
  have hlive : (final (load cliff) (new {})).world.entityIds = [.ofNat 0] := by decide +kernel
  obtain ⟨s₂, k, hreset, -, halike, hreplay⟩ := reset_restores hload accident
  refine ⟨_, hload, hlive, by decide +kernel, s₂, hreset, ?_, ?_⟩
  · exact (congrArg EntityStore.live halike.engine.world.entities).trans hlive
  · exact (hreplay (Heuristic.combatants_observes _) accident).1

end Simulation

end RuleSim
