import RuleSim.Proofs.Content.Allocator
import RuleSim.Proofs.Simulation.Loading
import RuleSim.Proofs.World.Furnished

namespace RuleSim

namespace World

variable {w w' : World} {ds : List EntityDecl} {ids : List EntityId}

/-- The entities are those of the declarations: one for each, in order, under the identifier for
which it asks if it asks for one, and with just the components that are declared for it. -/
def Houses (w : World) (ds : List EntityDecl) : Prop :=
  ∃ ids : List EntityId, ids.Nodup ∧ (∀ id, id ∈ w.entityIds ↔ id ∈ ids) ∧
    List.Forall₂ (fun d id => (∀ n ∈ d.id, id = .ofNat n) ∧ ∀ component,
      w.component? id component =
        (d.init? component).map (w.components.newRecord component)) ds ids

theorem Bare.houses (hw : Bare w) (h : spawnAll ds w = .ok ids w') (hroom : ds.length ≤ 2 ^ 64) :
    w'.Houses ds := by
  have hnone : w.entities.live = [] := congrArg EntityStore.live hw.entities
  have hall := spawnAll_populated h hw.sound (by rw [hnone]; simpa using hroom)
  have hschemas : w'.components.schemas = w.components.schemas := Spawns.schemas ⟨ids, h⟩
  refine ⟨ids, hall.distinct, fun id => ?_, hall.furnished.imp fun d id hd => ⟨hd.2, fun c => ?_⟩⟩
  · rw [entityIds, hall.live, hnone]
    simp
  · rw [hd.1.record, funext (newRecord_congr hschemas c)]

end World

namespace Content

variable {m : Module} {c c' : Content}

theorem install_ok_iff : (∃ report c', install m c = .ok report c') ↔
    ∃ ids w, World.spawnAll m.initialEntities (declared m c.world) = .ok ids w := by
  constructor
  · rintro ⟨report, c', h⟩
    obtain ⟨ids, hids⟩ := install_ok h
    exact ⟨ids, c'.world, hids⟩
  · rintro ⟨ids, w, h⟩
    have hspawn (rules : RuleSet) : onWorld (World.spawnAll m.initialEntities)
        ⟨declared m c.world, rules⟩ = .ok ids ⟨w, rules⟩ := by
      rw [onWorld]
      dsimp only
      rw [h]
    rw [install, get_bind]
    dsimp only
    rw [set_bind]
    exact ⟨_, _, bind_of_ok (hspawn _) _⟩

/-- Where nothing is, an accepted module is installed unless one of its entities asks for what the
allocator gives to one before it. -/
theorem install_bare_iff (hm : m.Accepted) (hw : World.Bare c.world) :
    (∃ report c', install m c = .ok report c') ↔
      ¬ EntityStore.empty.Forestalled m.initialEntities := by
  have hclash : EntityStore.empty.Clash m.initialEntities ↔
      EntityStore.empty.Forestalled m.initialEntities :=
    EntityStore.clash_iff_forestalled hm (.refl _) fun _ _ _ _ => List.not_mem_nil
  rw [install_ok_iff, ← hclash, ← (hw.declared m).entities, ← World.spawnAll_fails_iff]
  cases World.spawnAll m.initialEntities (declared m c.world) with
  | ok ids w => simp
  | error e w => simp

theorem install_houses (hw : World.Bare c.world) (hroom : m.initialEntities.length ≤ 2 ^ 64)
    {report : InstallReport} (h : install m c = .ok report c') :
    c'.world.Houses m.initialEntities := by
  obtain ⟨ids, hids⟩ := install_ok h
  exact (hw.declared m).houses hids hroom

end Content

namespace Simulation

variable {m : Module} {s : Simulation}

/-- A load succeeds just if the module can be installed on the cleared engine. -/
theorem load_cases (h : s.phase ≠ .running) (m : Module) :
    (∃ report c s', Content.install m ⟨s.engine.clear.world, {}⟩ = .ok report c ∧
      load m s = .ok () s' ∧ s'.world = c.world) ∨
    ∃ e c s', Content.install m ⟨s.engine.clear.world, {}⟩ = .error e c ∧
      load m s = .error e s' := by
  have hclear : s.engine.clear.rules = {} := rfl
  cases hi : Content.install m ⟨s.engine.clear.world, {}⟩ with
  | ok report c =>
      have hengine : Engine.install m s.engine.clear =
          .ok report { s.engine.clear with world := c.world, rules := c.rules } := by
        rw [Engine.install, Engine.onContent, hclear, hi]
      obtain ⟨subscribers, hload⟩ := load_of_ok h hengine
      exact .inl ⟨report, c, _, rfl, hload, rfl⟩
  | error e c =>
      have hengine : Engine.install m s.engine.clear =
          .error e { s.engine.clear with world := c.world, rules := c.rules } := by
        rw [Engine.install, Engine.onContent, hclear, hi]
      exact .inr ⟨e, c, _, rfl, load_of_error h hengine⟩

theorem load_ok_iff (h : s.phase ≠ .running) (hm : m.Accepted) :
    (∃ s', load m s = .ok () s') ↔ ¬ EntityStore.empty.Forestalled m.initialEntities := by
  rw [← Content.install_bare_iff (c := ⟨s.engine.clear.world, {}⟩) hm (World.clear_bare _)]
  rcases load_cases h m with ⟨report, c, s', hi, hload, -⟩ | ⟨e, c, s', hi, hload⟩
  · exact iff_of_true ⟨s', hload⟩ ⟨report, c, hi⟩
  · refine iff_of_false ?_ ?_
    · rintro ⟨t, ht⟩
      cases hload.symm.trans ht
    · rintro ⟨report, c', h⟩
      cases hi.symm.trans h

theorem load_houses (h : s.phase ≠ .running) (hroom : m.initialEntities.length ≤ 2 ^ 64)
    {s' : Simulation} (hload : load m s = .ok () s') : s'.world.Houses m.initialEntities := by
  rcases load_cases h m with ⟨report, c, t, hi, ht, hw⟩ | ⟨e, c, t, -, ht⟩
  · cases hload.symm.trans ht
    rw [hw]
    exact Content.install_houses (World.clear_bare _) hroom hi
  · cases hload.symm.trans ht

/-- An accepted module can be installed where no entities are, and loaded by each simulation that
does not run, just if none of its initial entities asks for an identifier that the allocator gives
to one before it. Then each of them is there, in order and under its identifier. As long as the
allocator does not come to the last number, one can tell from the entities alone at which number it
stands. -/
theorem installs_iff {doc : Json} {m : Module} (hm : Module.load doc = .ok m) :
    (∀ c : Content, c.world.Bare → ((∃ report c', Content.install m c = .ok report c') ↔
      ¬ EntityStore.empty.Forestalled m.initialEntities)) ∧
    (∀ s : Simulation, s.phase ≠ .running → ((∃ s', load m s = .ok () s') ↔
      ¬ EntityStore.empty.Forestalled m.initialEntities)) ∧
    (m.initialEntities.length ≤ 2 ^ 64 →
      (∀ (c : Content) report c', c.world.Bare → Content.install m c = .ok report c' →
        c'.world.Houses m.initialEntities) ∧
      ∀ s s' : Simulation, s.phase ≠ .running → load m s = .ok () s' →
        s'.world.Houses m.initialEntities) ∧
    (EntityStore.standsAt 0 m.initialEntities < 2 ^ 64 →
      (EntityStore.empty.Forestalled m.initialEntities ↔
        EntityStore.Overtaken 0 m.initialEntities)) := by
  have haccepted := Module.load_accepted hm
  refine ⟨fun c hc => Content.install_bare_iff haccepted hc,
    fun s h => load_ok_iff h haccepted, fun hroom => ⟨?_, ?_⟩,
    EntityStore.forestalled_iff_overtaken haccepted⟩
  · intro c report c' hc h
    exact Content.install_houses hc hroom h
  · intro s s' h hload
    exact load_houses h hroom hload

def harbor (berth : Int) : Json := .obj [
  ("components", .arr []),
  ("functions", .arr []),
  ("initial_state", .obj [("entities", .arr [.obj [], .obj [("id", .int berth)]])]),
  ("module", .str "harbor"),
  ("rules", .arr []),
  ("version", .str "1.0")]

def moored (berth : Nat) : Module where
  version := "1.0"
  name := "harbor"
  initialState := some [⟨none, none, [], []⟩, ⟨some berth, none, [], []⟩]

theorem harbor_installs : Module.load (harbor 5) = .ok (moored 5) ∧
    (moored 5).initialEntities.length ≤ 2 ^ 64 ∧
      ¬ EntityStore.empty.Forestalled (moored 5).initialEntities ∧
        ∃ s, load (moored 5) (new {}) = .ok () s ∧ s.world.Houses (moored 5).initialEntities := by
  have hm : Module.load (harbor 5) = .ok (moored 5) := rfl
  have hroom : (moored 5).initialEntities.length ≤ 2 ^ 64 := by decide
  have hidle : (new {}).phase ≠ .running := nofun
  obtain ⟨hinstall, hload, hhouses, -⟩ := installs_iff hm
  have hfree := (hinstall {} ⟨rfl, fun _ => rfl, fun _ => rfl, rfl, rfl⟩).mp ⟨_, _, rfl⟩
  obtain ⟨s, hs⟩ := (hload (new {}) hidle).mpr hfree
  exact ⟨hm, hroom, hfree, s, hs, (hhouses hroom).2 _ s hidle hs⟩

/-- The first boat takes the berth of the second. -/
theorem harbor_not_installs : ¬ ∀ (doc : Json) (m : Module), Module.load doc = .ok m →
    ∃ report c, Content.install m {} = .ok report c := by
  intro h
  obtain ⟨report, c, hinstall⟩ := h (harbor 0) (moored 0) rfl
  cases hinstall

end Simulation

end RuleSim
