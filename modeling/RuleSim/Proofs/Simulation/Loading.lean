import RuleSim.Proofs.Simulation.Reachable
import RuleSim.Proofs.Simulation.Reset

namespace RuleSim

namespace Content

structure Alike (k : UInt64) (c d : Content) : Prop where
  world : c.world.Alike k d.world
  rules : d.rules = c.rules

variable {k : UInt64} {α : Type}

theorem respects_onWorld {x : EStateM Error World α} (hx : Respects (World.Alike k) x) :
    Respects (Alike k) (onWorld x) := by
  intro c d h
  have hworld := hx _ _ h.world
  unfold onWorld
  generalize x c.world = r, x d.world = r' at hworld
  cases hworld with
  | ok a hw => exact .ok a ⟨hw, h.rules⟩
  | error e hw => exact .error e ⟨hw, h.rules⟩

theorem declared_alike (m : Module) {w v : World} (h : w.Alike k v) :
    (declared m w).Alike k (declared m v) := by
  rw [declared, declared]
  induction m.components generalizing w v with
  | nil => exact h
  | cons d ds ih =>
      apply ih (w := w.register (.ofDecl d)) (v := v.register (.ofDecl d))
      refine ⟨h.entities, ⟨?_, h.components.instances, h.components.components⟩, h.bound, h.names,
        h.revision⟩
      change v.components.schemas.insert _ _ = w.components.schemas.insert _ _
      rw [h.components.schemas]

theorem respects_install (m : Module) : Respects (Alike k) (install m) := by
  intro c d h
  rw [install, get_bind, get_bind, h.rules]
  dsimp only
  rw [set_bind, set_bind]
  apply (respects_onWorld (World.respects_spawnAll m.initialEntities)).bind
  · exact fun _ => respects_pure _
  · exact ⟨declared_alike m h.world, rfl⟩

end Content

namespace Engine

variable {k : UInt64}

theorem respects_onContent {α : Type} {x : EStateM Error Content α}
    (hx : Respects (Content.Alike k) x) : Respects (Alike k) (onContent x) := by
  intro e f h
  have hcontent := hx ⟨e.world, e.rules⟩ ⟨f.world, f.rules⟩ ⟨h.world, h.rules⟩
  unfold onContent
  generalize x ⟨e.world, e.rules⟩ = r, x ⟨f.world, f.rules⟩ = r' at hcontent
  cases hcontent with
  | ok a hc =>
      exact .ok a ⟨⟨hc.world, h.scheduler, h.random⟩, hc.rules, h.seed, h.limits, h.watchdog⟩
  | error err hc =>
      exact .error err ⟨⟨hc.world, h.scheduler, h.random⟩, hc.rules, h.seed, h.limits, h.watchdog⟩

structure SetUp (config : Config) (e : Engine) : Prop where
  seed : e.seed = config.seed
  limits : e.limits = config.limits
  watchdog : e.watchdog.forget = .ofConfig config.watchdog

variable {config : Config} {e e' : Engine}

theorem Keeps.setUp (hk : e.Keeps e') (h : e.SetUp config) : e'.SetUp config := by
  refine ⟨hk.seed.trans h.seed, hk.limits.trans h.limits, ?_⟩
  rw [← h.watchdog, Watchdog.forget, Watchdog.forget, hk.config, hk.heuristic]

theorem SetUp.onContent {α : Type} (h : e.SetUp config) (x : EStateM Error Content α) :
    (final (Engine.onContent x) e).SetUp config := by
  rw [final_onContent]
  exact ⟨h.seed, h.limits, h.watchdog⟩

/-- To clear the engine leaves its settings and the revision of the world. -/
theorem SetUp.clear_alike (h : e.SetUp config) (h' : e'.SetUp config) :
    ∃ k, Alike k e.clear e'.clear := by
  have hbare := (e.world.clearEntities.clear_bare).alike (e'.world.clearEntities.clear_bare) rfl
  refine ⟨_, ⟨hbare, rfl, ?_⟩, rfl, ?_, ?_, ?_⟩
  · exact congrArg Random.ofSeed (h'.seed.trans h.seed.symm)
  · exact h'.seed.trans h.seed.symm
  · exact h'.limits.trans h.limits.symm
  · exact h'.watchdog.trans h.watchdog.symm

end Engine

namespace Simulation

inductive Driven (config : Config) : Simulation → Prop
  | new : Driven config (new config)
  | operation {s : Simulation} (o : Operation) (ho : o.Own) :
      Driven config s → Driven config (s.operate o)

theorem Driven.foldl {config : Config} {s : Simulation} (h : Driven config s)
    (ops : List Operation) (hops : ∀ o ∈ ops, o.Own) : Driven config (ops.foldl operate s) := by
  induction ops generalizing s with
  | nil => exact h
  | cons o ops ih =>
      apply ih (.operation o (hops o List.mem_cons_self) h)
      exact fun p hp => hops p (List.mem_cons_of_mem o hp)

def SetUp (config : Config) (s : Simulation) : Prop := s.config = config ∧ s.engine.SetUp config

theorem setUp_drives (config : Config) :
    Drives fun s t => SetUp config s → SetUp config t where
  refl _ h := h
  trans h h' := h' ∘ h
  entered _ _ h := h
  told _ _ h := h
  request s r hr h := ⟨h.1, (keeps_carries.request s hr).engine.setUp h.2⟩
  written hw h := ⟨h.1, (keeps_carries.written hw).engine.setUp h.2⟩
  drained _ h := ⟨h.1, h.2.seed, h.2.limits, h.2.watchdog⟩
  captured _ _ h := h
  forgotten _ h := h
  content s r hr h := by
    refine ⟨h.1, ?_⟩
    cases r with
    | install | merge | spawnAll => exact h.2.onContent _
    | _ => exact hr.elim
  listed _ _ _ h := h
  emptied _ h := ⟨h.1, h.2.seed, h.2.limits, h.2.watchdog⟩
  restarted _ h := ⟨h.1, h.2.seed, h.2.limits, h.2.watchdog⟩
  unloaded _ h := ⟨h.1, h.2.seed, h.2.limits, h.2.watchdog⟩

theorem new_setUp (config : Config) : SetUp config (new config) := ⟨rfl, rfl, rfl, rfl⟩

theorem Driven.setUp {config : Config} {s : Simulation} (h : Driven config s) :
    SetUp config s := by
  induction h with
  | new => exact new_setUp config
  | operation o ho _ ih => exact (setUp_drives config).operate _ ho ih

theorem requireNotRunning_ok {s : Simulation} (h : s.phase ≠ .running) (operation : String) :
    requireNotRunning operation s = .ok ⟨⟩ s := by
  rw [requireNotRunning, get_bind, if_neg h]
  rfl

theorem requireNotRunning_error {s : Simulation} (h : s.phase = .running) (operation : String) :
    requireNotRunning operation s = .error ⟨.invalidState operation "running", none⟩ s := by
  rw [requireNotRunning, get_bind, if_pos h, refuse, get_bind, h]
  rfl

theorem load_of_running {s : Simulation} (h : s.phase = .running) (m : Module) :
    load m s = .error ⟨.invalidState "load a module" "running", none⟩ s := by
  change EStateM.bind _ _ s = _
  rw [EStateM.bind, requireNotRunning_error h]

section

variable {m : Module} {s : Simulation} (h : s.phase ≠ .running)
include h

theorem load_of_ok {report : InstallReport} {engine : Engine}
    (hi : Engine.install m s.engine.clear = .ok report engine) :
    ∃ subscribers, load m s = .ok () { s with
      engine, subscribers, phase := .idle, trace := s.trace.clear
      modules := [m.name], initialEntities := m.initialEntities } := by
  obtain ⟨subscribers, henter⟩ := enter_notify_eq .idle (.loaded m.name) { s with
    engine, trace := s.trace.clear
    modules := [m.name], initialEntities := m.initialEntities }
  refine ⟨subscribers, ?_⟩
  rw [load, bind_of_ok (requireNotRunning_ok h _), bind_of_ok (x := modify _) rfl, get_bind]
  dsimp only
  rw [hi]
  exact henter

theorem load_of_error {e : Error} {engine : Engine}
    (hi : Engine.install m s.engine.clear = .error e engine) :
    load m s = .error e { s with
      engine := engine.clear, trace := s.trace.clear, modules := [], initialEntities := [] } := by
  rw [load, bind_of_ok (requireNotRunning_ok h _), bind_of_ok (x := modify _) rfl, get_bind]
  dsimp only
  rw [hi]
  rfl

end

/-- Nothing is loaded and nothing is there, but for the revision of the world. -/
structure Vacant (s : Simulation) : Prop where
  world : ∃ revision, s.world = { World.empty with revision }
  rules : s.engine.rules = {}
  scheduler : s.engine.scheduler = .empty
  modules : s.modules = []
  initialEntities : s.initialEntities = []

/-- While a simulation runs, a load is refused and changes nothing. Otherwise a load succeeds just
if it does on a new simulation, and what it leads to differs in no more than the revision of the
world and what is traced and subscribed; if it fails, nothing stays. -/
theorem load_forgets {config : Config} {s : Simulation} (h : Driven config s) (m : Module) :
    (s.phase = .running →
      load m s = .error ⟨.invalidState "load a module" "running", none⟩ s) ∧
    (s.phase ≠ .running →
      (∃ s' t k, load m s = .ok () s' ∧ load m (new config) = .ok () t ∧ Alike k t s') ∨
      ∃ e s' t, load m s = .error e s' ∧ load m (new config) = .error e t ∧ s'.Vacant) := by
  refine ⟨fun hr => load_of_running hr m, fun hr => ?_⟩
  obtain ⟨hconfig, hset⟩ := h.setUp
  obtain ⟨k, hclear⟩ := (new_setUp config).2.clear_alike hset
  have hinstall := Engine.respects_onContent (Content.respects_install m) _ _ hclear
  have hnew : (new config).phase ≠ .running := nofun
  generalize hi : Engine.onContent (Content.install m) s.engine.clear = r,
    hi' : Engine.onContent (Content.install m) (new config).engine.clear = r' at hinstall
  cases hinstall with
  | ok report halike =>
      obtain ⟨_, hload⟩ := load_of_ok hr hi
      obtain ⟨_, hload'⟩ := load_of_ok hnew hi'
      exact .inl ⟨_, _, k, hload, hload', hconfig, halike, rfl, rfl, rfl⟩
  | error e halike =>
      exact .inr ⟨e, _, _, load_of_error hr hi, load_of_error hnew hi', ⟨_, rfl⟩, rfl, rfl, rfl, rfl⟩

def fallen : Simulation :=
  [.load cliff, .call .start, .call (.schedule "fall" .zero {}), .call .step, .call .stop].foldl
    operate (new {})

def crowd : Module where
  version := "1.0"
  name := "crowd"
  initialState := some [⟨some 7, none, [], []⟩, ⟨some 7, none, [], []⟩]

theorem fallen_load_forgets : Driven {} fallen ∧ fallen.phase ≠ .running ∧
    fallen.world.entityIds = [] ∧
    (∃ s' t k, load cliff fallen = .ok () s' ∧ load cliff (new {}) = .ok () t ∧ Alike k t s') ∧
    ∃ e s' t, load crowd fallen = .error e s' ∧ load crowd (new {}) = .error e t ∧ s'.Vacant := by
  have h : Driven {} fallen := Driven.foldl .new _ (by simp [Operation.Own])
  have hr : fallen.phase ≠ .running := by decide +kernel
  refine ⟨h, hr, by decide +kernel, ?_, ?_⟩
  · have hload : load cliff (new {}) = .ok () (final (load cliff) (new {})) := by rfl
    rcases (load_forgets h cliff).2 hr with hforgets | ⟨e, s', t, -, herror, -⟩
    · exact hforgets
    · cases hload.symm.trans herror
  · have hload : ∃ e, load crowd (new {}) = .error e (final (load crowd) (new {})) := ⟨_, by rfl⟩
    obtain ⟨e, hload⟩ := hload
    rcases (load_forgets h crowd).2 hr with ⟨s', t, k, -, hok, -⟩ | hforgets
    · cases hload.symm.trans hok
    · exact hforgets

end Simulation

end RuleSim
