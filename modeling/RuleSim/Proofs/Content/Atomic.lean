import RuleSim.Content.Merge
import RuleSim.Proofs.Document.Accepted
import RuleSim.Proofs.Final
import RuleSim.Proofs.World.Sound

namespace RuleSim

theorem EntityId.ofNat_inj {k n : Nat} (hk : k < 2 ^ 64) (hn : n < 2 ^ 64)
    (h : EntityId.ofNat k = EntityId.ofNat n) : k = n := by
  have hmod := ofNat_eq_iff.mp h
  omega

def EntityStore.Forestalled (s : EntityStore) (ds : List EntityDecl) : Prop :=
  ∃ before d after n, ds = before ++ d :: after ∧ d.id = some n ∧
    EntityId.ofNat n ∈ s.allocated before

/-- Initial entities that ask for identifiers which are not live clash just with what the allocator
gives out in between. -/
theorem EntityStore.clash_iff_forestalled {m : Module} (hm : m.Accepted) {s : EntityStore}
    {ds : List EntityDecl} (hsub : ds.Sublist m.initialEntities)
    (habsent : ∀ d ∈ ds, ∀ n, d.id = some n → EntityId.ofNat n ∉ s.live) :
    s.Clash ds ↔ s.Forestalled ds := by
  constructor
  · rintro ⟨before, d, after, n, rfl, hd, hx⟩
    refine ⟨before, d, after, n, rfl, hd, ?_⟩
    rcases hx with hlive | ⟨k, hk, hkn⟩ | hx
    · exact absurd hlive (habsent d (by simp) n hd)
    · have hdistinct := hm.distinct.sublist (hsub.filterMap (·.id))
      rw [List.filterMap_append, List.filterMap_cons_some hd, List.nodup_append] at hdistinct
      obtain ⟨f, hf, hfk⟩ := List.mem_filterMap.mp hk
      have hkb := hm.bounded f (hsub.subset (List.mem_append_left _ hf)) k hfk
      have hnb := hm.bounded d (hsub.subset (by simp)) n hd
      exact absurd (EntityId.ofNat_inj hkb hnb hkn) (hdistinct.2.2 k hk n (by simp))
    · exact hx
  · rintro ⟨before, d, after, n, heq, hd, hx⟩
    exact ⟨before, d, after, n, heq, hd, .inr (.inr hx)⟩

namespace Merge

/-- Of the initial entities that are to be created, one asks for an identifier that one before it,
which asks for none, gets. -/
def Collides (w : World) (m : Module) : Prop :=
  ∃ before d after n, absentEntities w m.initialEntities = before ++ d :: after ∧
    d.id = some n ∧ EntityId.ofNat n ∈ w.entities.allocated before

theorem clash_iff_collides {m : Module} (hm : m.Accepted) (w : World) :
    w.entities.Clash (absentEntities w m.initialEntities) ↔ Collides w m := by
  apply EntityStore.clash_iff_forestalled hm List.filter_sublist
  intro d hd n hn hlive
  have habsent := (List.mem_filter.mp hd).2
  simp [hn, World.hasEntity, EntityStore.exists?, hlive] at habsent

theorem SchemaChange.apply_entities (changes : List SchemaChange) (w : World) :
    (changes.foldl SchemaChange.apply w).entities = w.entities := by
  have hfield (w : World) (component : String) (f : FieldSchema) :
      (w.mergeField component f).entities = w.entities := by
    obtain ⟨schema, -, ⟨-, h⟩ | h⟩ := w.mergeField_cases component f
    · rw [h]
      rfl
    · rw [h]
      rfl
  have hfields (component : String) (fields : List FieldChange) (w : World) :
      (fields.foldl (fun w f => w.mergeField component f.schema) w).entities = w.entities := by
    induction fields generalizing w with
    | nil => rfl
    | cons f fields ih => rw [List.foldl_cons, ih, hfield]
  induction changes generalizing w with
  | nil => rfl
  | cons change changes ih =>
      rw [List.foldl_cons, ih]
      cases change with
      | register schema => rfl
      | change component fields => exact hfields component fields w

def created (m : Module) (options : MergeOptions) (w : World) : List EntityDecl :=
  absentEntities w (if options.mergeEntities then m.initialEntities else [])

end Merge

namespace Content

open Merge

def planned (m : Module) (options : MergeOptions) (changes : List SchemaChange) (c : Content) :
    Content where
  world := changes.foldl SchemaChange.apply c.world
  rules :=
    let rules := c.rules.addRules (m.rules.map (shift (idOffset m c.rules options.shiftIds)))
    (rules.addFunctions m.functions).2.addConstants m.constants

variable {m : Module} {options : MergeOptions} {c : Content}

theorem merge_of_conflict {e : Error}
    (h : planSchemas c.world options.overrideTypes m.components = .error e) :
    Content.merge m options c = .error e c := by
  unfold Content.merge
  rw [get_bind, h]
  rfl

/-- Without a conflict a merge fails just if it fails to create the entities. -/
theorem merge_error_iff {changes : List SchemaChange}
    (h : planSchemas c.world options.overrideTypes m.components = .ok changes) (e : Error)
    (c' : Content) : Content.merge m options c = .error e c' ↔
      onWorld (World.spawnAll (created m options c.world)) (planned m options changes c) =
        .error e c' := by
  unfold Content.merge
  rw [get_bind, h]
  change (EStateM.bind (onWorld (World.spawnAll (created m options c.world))) _)
    (planned m options changes c) = _ ↔ _
  unfold EStateM.bind
  cases onWorld (World.spawnAll (created m options c.world)) (planned m options changes c) with
  | ok ids c'' => exact iff_of_false nofun nofun
  | error e' c'' => simp only [EStateM.Result.error.injEq]

theorem late_failure_iff (hm : m.Accepted) (options : MergeOptions) (c : Content)
    (changes : List SchemaChange) :
    (∃ e c', onWorld (World.spawnAll (created m options c.world)) (planned m options changes c) =
        .error e c') ↔ options.mergeEntities = true ∧ Collides c.world m := by
  have hspawn : (∃ e c', onWorld (World.spawnAll (created m options c.world))
      (planned m options changes c) = .error e c') ↔
        c.world.entities.Clash (created m options c.world) := by
    rw [← SchemaChange.apply_entities changes c.world]
    rw [← World.spawnAll_fails_iff]
    unfold onWorld planned
    dsimp only
    cases World.spawnAll (created m options c.world) (changes.foldl SchemaChange.apply c.world) with
    | ok ids w => simp
    | error e w => simp
  rw [hspawn, created]
  cases options.mergeEntities with
  | true => simpa using clash_iff_collides hm c.world
  | false =>
      refine iff_of_false ?_ (by simp)
      rintro ⟨before, d, after, n, heq, -⟩
      simp [absentEntities] at heq

/-- A merge that fails on its entities has made one of them live. -/
theorem late_failure_ne {changes : List SchemaChange} {e : Error} {c' : Content}
    (h : onWorld (World.spawnAll (created m options c.world)) (planned m options changes c) =
      .error e c') : c' ≠ c := by
  rintro rfl
  unfold onWorld at h
  cases hs : World.spawnAll (created m options c'.world) (planned m options changes c').world with
  | ok ids w => simp [hs] at h
  | error e' w =>
      simp only [hs, EStateM.Result.error.injEq] at h
      obtain ⟨d, hd, n, hn, hlive⟩ := World.spawnAll_failed hs
      have habsent := (List.mem_filter.mp hd).2
      rw [show w = c'.world from congrArg Content.world h.2] at hlive
      simp [hn, World.hasEntity, EntityStore.exists?, hlive] at habsent

/-- A failing merge leaves everything as it was, unless its schemas fit, it is to create entities,
and one of them asks for an identifier that the allocator gives to an earlier one. -/
theorem merge_atomic_iff {doc : Json} (hm : Module.load doc = .ok m) (options : MergeOptions)
    (c : Content) :
    (∀ e c', Content.merge m options c = .error e c' → c' = c) ↔
      ¬ ((∃ changes, planSchemas c.world options.overrideTypes m.components = .ok changes) ∧
        options.mergeEntities = true ∧ Collides c.world m) := by
  cases hp : planSchemas c.world options.overrideTypes m.components with
  | error e =>
      refine iff_of_true ?_ (by simp)
      intro e' c' h
      rw [merge_of_conflict hp] at h
      cases h
      rfl
  | ok changes =>
      have hlate := late_failure_iff (Module.load_accepted hm) options c changes
      constructor
      · rintro hatomic ⟨-, hc⟩
        obtain ⟨e, c', h⟩ := hlate.mpr hc
        exact late_failure_ne h (hatomic e c' ((merge_error_iff hp e c').mpr h))
      · intro hnot e c' h
        exact absurd ⟨⟨changes, rfl⟩, hlate.mp ⟨e, c', (merge_error_iff hp e c').mp h⟩⟩ hnot

def crossing : Json := .obj [
  ("components", .arr [.obj [("fields", .arr []), ("name", .str "Shield")]]),
  ("functions", .arr []),
  ("initial_state", .obj [("entities", .arr [.obj [], .obj [("id", .int 0)]])]),
  ("module", .str "crossing"),
  ("rules", .arr []),
  ("version", .str "1.0")]

def crossed : Module where
  version := "1.0"
  name := "crossing"
  components := [{ name := "Shield", fields := [] }]
  initialState := some [⟨none, none, [], []⟩, ⟨some 0, none, [], []⟩]

theorem crossing_not_atomic : Module.load crossing = .ok crossed ∧
    ¬ ∀ e c', Content.merge crossed ⟨false, false, true⟩ {} = .error e c' → c' = {} := by
  have hm : Module.load crossing = .ok crossed := rfl
  refine ⟨hm, fun hatomic => ?_⟩
  refine (merge_atomic_iff hm ⟨false, false, true⟩ {}).mp hatomic ⟨⟨_, rfl⟩, rfl, ?_⟩
  exact ⟨[⟨none, none, [], []⟩], ⟨some 0, none, [], []⟩, [], 0, rfl, rfl, by decide⟩

theorem merge_not_atomic : ¬ ∀ (doc : Json) (m : Module) (options : MergeOptions) (c c' : Content)
    (e : Error), Module.load doc = .ok m → Content.merge m options c = .error e c' → c' = c := by
  intro h
  have hsame := h crossing crossed ⟨false, false, true⟩ {} _ _ rfl rfl
  exact absurd (congrArg (·.world.entities.live) hsame) (by decide)

end Content

end RuleSim
