import RuleSim.Proofs.Content.Adopted
import RuleSim.Proofs.Simulation.Loading
import RuleSim.Proofs.World.Recast

namespace RuleSim

open World (Akin AgreeLoose Bare Grows InLine Recast SameFields Sound Spawns)

namespace Merge

variable {w : World} {ds : List ComponentDecl} {changes : List SchemaChange}

/-- Without overriding, only new fields are adopted. -/
theorem adopted_new (h : planSchemas w false ds = .ok changes) {k : String} {s : ComponentSchema}
    (hs : w.schema? k = some s) {n : String} (hn : s.field? n ≠ none) :
    ∀ f ∈ s.adopted (declaredFields ds k), n ≠ f.name := by
  rintro f hf rfl
  obtain ⟨d, -, rfl, htype⟩ := adopted_of_ok h hs hf
  obtain ⟨g, hg⟩ := Option.ne_none_iff_exists'.mp hn
  cases (htype g hg).1

theorem adoptAll_grows (hw : w.Titled) (h : planSchemas w false ds = .ok changes) :
    Grows w (adoptAll w ds) where
  places := samePlaces_adoptAll w ds
  loose component field hloose := by
    unfold World.fieldSchema? at hloose ⊢
    cases hs : w.schema? component with
    | none => rfl
    | some s =>
        rw [schema?_adoptAll hw hs] at hloose
        exact (ComponentSchema.field?_upsertFields_none hloose).1
  initially component field x hschema := by
    unfold World.fieldSchema? at hschema
    cases hs : w.schema? component with
    | none =>
        rw [hs] at hschema
        exact absurd rfl hschema
    | some s =>
        rw [hs, Option.bind_some] at hschema
        have hnew := adopted_new h hs hschema
        have hs' := schema?_adoptAll hw hs ds
        unfold World.schema? at hs hs'
        unfold ComponentStore.initially ComponentStore.coerce ComponentSchema.coerce
        simp only [hs, hs', Option.bind_some, ComponentSchema.field?_upsertFields hnew,
          ComponentSchema.find?_defaults_upsertFields hnew]
  records id component := by
    rw [component?_adoptAll]
    cases hs : w.schema? component with
    | none =>
        cases w.component? id component with
        | none => exact .none
        | some r => exact .some fun _ _ => rfl
    | some s =>
        cases w.component? id component with
        | none => exact .none
        | some r =>
            refine .some fun field hfield => World.find?_align_of_ne ?_ r
            unfold World.fieldSchema? at hfield
            rw [schema?_adoptAll hw hs, hs, Option.bind_some, Option.bind_some] at hfield
            rcases hfield with hschema | hloose
            · exact adopted_new h hs hschema
            · exact (ComponentSchema.field?_upsertFields_none hloose).2

end Merge

namespace Simulation

open Merge (adoptAll adoptAll_grows created)

def added (s : Simulation) (m : Module) (options : MergeOptions) : List EntityDecl :=
  if options.mergeEntities then newEntities s.initialEntities m.initialEntities else []

theorem merge_ok {m : Module} {options : MergeOptions} {s t : Simulation} {report : MergeReport}
    (h : merge m options s = .ok report t) :
    ∃ c, Content.merge m options ⟨s.world, s.engine.rules⟩ = .ok report c ∧ t.world = c.world ∧
      t.initialEntities = s.initialEntities ++ added s m options := by
  unfold merge at h
  obtain ⟨⟨⟩, s₁, hphase, h⟩ := bind_ok h
  obtain ⟨r, s₂, hmerge, h⟩ := bind_ok h
  obtain rfl : s₁ = s := by
    by_cases hrunning : s.phase = .running
    · rw [requireNotRunning_error hrunning] at hphase
      cases hphase
    · rw [requireNotRunning_ok hrunning] at hphase
      cases hphase
      rfl
  obtain ⟨e, hengine, rfl⟩ := onEngine_ok hmerge
  obtain ⟨c, hcontent, rfl⟩ := Engine.onContent_ok hengine
  cases h
  refine ⟨c, hcontent, rfl, ?_⟩
  unfold added
  dsimp only
  split
  · rfl
  · rw [List.append_nil]

/-- A reset succeeds and leads to the entities that there are, with all that they have. -/
def Restorable (s : Simulation) : Prop := ∃ t k, reset s = .ok () t ∧ World.Alike k s.world t.world

def Respawns (s : Simulation) (v : World) : Prop := Spawns s.initialEntities s.world.clearEntities v

theorem restorable_iff_respawns {s : Simulation} :
    s.Restorable ↔ ∃ v, s.Respawns v ∧ ∃ k, World.Alike k s.world v := by
  constructor
  · rintro ⟨t, k, hreset, halike⟩
    exact ⟨t.world, reset_ok hreset, k, halike⟩
  · rintro ⟨v, ⟨ids, hspawn⟩, k, halike⟩
    obtain ⟨subscribers, hreset⟩ := reset_of_ok hspawn
    exact ⟨_, k, hreset, halike⟩

/-- What a reset brings back agrees with what there is in fields without a schema. -/
structure Tracked (s : Simulation) : Prop where
  reachable : World.Reachable s.world
  agree : ∀ v, s.Respawns v → Akin (AgreeLoose s.world) s.world v

theorem clearEntities_schemas (w : World) :
    w.clearEntities.components.schemas = w.components.schemas := World.removeEntities_schemas ..

namespace Tracked

variable {s t : Simulation}

theorem bare (h : Tracked s) : Bare s.world.clearEntities := h.reachable.sound.clearEntities_bare

theorem respawned_reachable (h : Tracked s) {v : World} (hv : s.Respawns v) : World.Reachable v :=
  (World.Spawns.asks hv).reachable (h.reachable.request .clearEntities)

theorem restorable_iff (h : Tracked s) :
    s.Restorable ↔ ∃ v, s.Respawns v ∧ SameFields s.world v := by
  rw [restorable_iff_respawns]
  refine exists_congr fun v => and_congr_right fun hv => ?_
  exact World.alike_iff_sameFields (h.agree v hv)
    ((World.Spawns.schemas hv).trans (clearEntities_schemas s.world)) h.reachable.ordered
    (h.respawned_reachable hv).ordered

end Tracked

/-- The merge adds an initial entity that asks for an identifier which is live, though no initial
entity asked for it before. -/
def Doubles (s : Simulation) (m : Module) (options : MergeOptions) : Prop :=
  ∃ d ∈ added s m options, ∃ n, d.id = some n ∧ s.world.hasEntity (.ofNat n) = true

/-- If no identifier is asked for twice, a reset brings back what the merge created. -/
theorem added_eq_created {s : Simulation} {m : Module} {options : MergeOptions} {v : World}
    (hs : Tracked s) (hv : s.Respawns v) (hdoubles : ¬ Doubles s m options) :
    added s m options = created m options s.world := by
  unfold Doubles at hdoubles
  unfold added at hdoubles ⊢
  unfold created Merge.absentEntities
  split
  · next hmerge =>
      rw [if_pos hmerge] at hdoubles
      unfold newEntities at hdoubles ⊢
      refine List.filter_congr fun d hd => ?_
      cases hid : d.id with
      | none => rfl
      | some n =>
          have hlive : s.world.hasEntity (.ofNat n) =
              (s.initialEntities.map (·.id)).contains (some n) := by
            rw [Bool.eq_iff_iff, List.contains_iff_mem]
            constructor
            · intro hlive
              by_contra hnew
              refine hdoubles ⟨d, List.mem_filter.mpr ⟨hd, ?_⟩, n, hid, hlive⟩
              simpa [hid] using hnew
            · intro hknown
              obtain ⟨e, he, hen⟩ := List.mem_map.mp hknown
              have hlive := World.Spawns.chosen hv he hen
              rw [(hs.agree v hv).places.entities] at hlive
              exact decide_eq_true hlive
          simp [hlive]
  · rfl

structure Merges (s : Simulation) (m : Module) (options : MergeOptions) (w : World)
    (t : Simulation) : Prop where
  grows : Grows s.world w
  sound : Sound w
  spawns : Spawns (created m options s.world) w t.world
  reachable : World.Reachable t.world
  initialEntities : t.initialEntities = s.initialEntities ++ added s m options

variable {s t : Simulation} {m : Module} {options : MergeOptions} {w u v : World}

theorem merge_merges {report : MergeReport} (hs : World.Reachable s.world)
    (hoff : options.overrideTypes = false) (h : merge m options s = .ok report t) :
    ∃ w, Merges s m options w t := by
  obtain ⟨c, hcontent, hworld, hinitial⟩ := merge_ok h
  obtain ⟨⟨changes, hplan⟩, -, ids, hspawn⟩ := Content.merge_ok hcontent
  rw [hoff] at hplan
  have hsound := ((Merge.adoptAll_asks s.world m.components).reachable hs).sound
  have hreachable := (operate_moves Engine.leads_moving s (.merge m options)).reachable hs
  rw [operate, final_of_ok h] at hreachable
  exact ⟨_, adoptAll_grows hs.titled hplan, hsound, ⟨ids, hworld ▸ hspawn⟩, hreachable, hinitial⟩

namespace Merges

variable (h : Merges s m options w t) (hs : Tracked s)
include h hs

theorem recast_bare :
    Akin (Recast s.world w) s.world.clearEntities t.world.clearEntities :=
  h.grows.akin hs.bare h.reachable.sound.clearEntities_bare (clearEntities_schemas _)
    ((clearEntities_schemas _).trans h.spawns.schemas)

/-- A world to which a reset leads after the merge comes from one to which it led before. -/
theorem respawns (hu : t.Respawns u) : ¬ Doubles s m options ∧ ∃ v v', s.Respawns v ∧
    Akin (Recast s.world w) v v' ∧ v'.components.schemas = w.components.schemas ∧
      Sound v' ∧ Spawns (created m options s.world) v' u := by
  unfold Respawns at hu
  rw [h.initialEntities, World.spawns_append] at hu
  obtain ⟨v', hv', hu⟩ := hu
  obtain ⟨v, hv, hcast⟩ := (h.recast_bare hs).spawned hv'
  have hplaces := (hs.agree v hv).places.trans hcast.places
  have hdoubles : ¬ Doubles s m options := by
    rintro ⟨d, hd, n, hn, hlive⟩
    refine hu.not_live hd hn ?_
    rw [hplaces.entities]
    exact of_decide_eq_true hlive
  rw [added_eq_created hs hv hdoubles] at hu
  have hreachable := hv'.asks.reachable (h.reachable.request .clearEntities)
  exact ⟨hdoubles, v, v', hv, hcast,
    (hv'.schemas.trans (clearEntities_schemas _)).trans h.spawns.schemas, hreachable.sound, hu⟩

/-- Unless an identifier is asked for twice, a reset can do what it could do before the merge. -/
theorem respawns_of (hv : s.Respawns v) (hdoubles : ¬ Doubles s m options) :
    ∃ u, t.Respawns u := by
  obtain ⟨v', hv', hcast⟩ := (h.recast_bare hs).spawns hv
  have hschemas := (hv'.schemas.trans (clearEntities_schemas _)).trans h.spawns.schemas
  have hagree := h.grows.agreeLoose (hs.agree v hv) hcast hschemas
  obtain ⟨u, hu, -⟩ := hagree.spawns h.spawns
  refine ⟨u, ?_⟩
  unfold Respawns
  rw [h.initialEntities, World.spawns_append, added_eq_created hs hv hdoubles]
  exact ⟨v', hv', hu⟩

theorem tracked : Tracked t where
  reachable := h.reachable
  agree u hu := by
    obtain ⟨-, v, v', hv, hcast, hschemas, -, hspawns⟩ := h.respawns hs hu
    have hagree := h.grows.agreeLoose (hs.agree v hv) hcast hschemas
    obtain ⟨u', hu', hakin⟩ := hagree.spawns h.spawns
    obtain rfl := hspawns.unique hu'
    unfold AgreeLoose at hakin ⊢
    rwa [World.fieldSchema?_congr h.spawns.schemas]

/-- There is room for what the merge creates if there is room for all initial entities. -/
theorem room (hroom : t.initialEntities.length ≤ 2 ^ 64) (hv : s.Respawns v)
    (hdoubles : ¬ Doubles s m options) :
    w.entities.live.length + (created m options s.world).length ≤ 2 ^ 64 := by
  have hlen := World.Spawns.length_le hv
  rw [(hs.agree v hv).places.entities, ← h.grows.places.entities, hs.bare.entities] at hlen
  rw [h.initialEntities, List.length_append, added_eq_created hs hv hdoubles] at hroom
  change _ ≤ 0 + _ at hlen
  omega

theorem restorable_iff (hroom : t.initialEntities.length ≤ 2 ^ 64) :
    t.Restorable ↔ s.Restorable ∧ ¬ Doubles s m options ∧ InLine s.world t.world := by
  have hstep {u : World} (hu : t.Respawns u) : ¬ Doubles s m options ∧ ∃ v, s.Respawns v ∧
      (SameFields t.world u ↔ SameFields s.world v ∧ InLine s.world t.world) := by
    obtain ⟨hdoubles, v, v', hv, hcast, hschemas, hsound, hspawns⟩ := h.respawns hs hu
    exact ⟨hdoubles, v, hv, h.grows.sameFields_spawns_iff (hs.agree v hv) hcast hschemas
      hs.reachable.sound h.sound hsound (h.room hs hroom hv hdoubles) h.spawns hspawns⟩
  rw [(h.tracked hs).restorable_iff, hs.restorable_iff]
  constructor
  · rintro ⟨u, hu, hsame⟩
    obtain ⟨hdoubles, v, hv, hiff⟩ := hstep hu
    obtain ⟨hsame, hline⟩ := hiff.mp hsame
    exact ⟨⟨v, hv, hsame⟩, hdoubles, hline⟩
  · rintro ⟨⟨v, hv, hsame⟩, hdoubles, hline⟩
    obtain ⟨u, hu⟩ := h.respawns_of hs hv hdoubles
    obtain ⟨-, v', hv', hiff⟩ := hstep hu
    obtain rfl := World.Spawns.unique hv hv'
    exact ⟨u, hu, hiff.mpr ⟨hsame, hline⟩⟩

end Merges

def mergeAll : List (Module × MergeOptions) → Host (List MergeReport)
  | [] => pure []
  | p :: ps => do
    let report ← merge p.1 p.2
    return report :: (← mergeAll ps)

/-- No merge adds an initial entity under an identifier that is live, and each merge brings the
records in line with the schemas. -/
def Recoverable (s : Simulation) : List (Module × MergeOptions) → Prop
  | [] => True
  | p :: ps =>
    ¬ Doubles s p.1 p.2 ∧ InLine s.world (final (merge p.1 p.2) s).world ∧
      Recoverable (final (merge p.1 p.2) s) ps

theorem mergeAll_cons_ok {p : Module × MergeOptions} {ps : List (Module × MergeOptions)}
    {reports : List MergeReport} (h : mergeAll (p :: ps) s = .ok reports t) :
    ∃ report s' rest, merge p.1 p.2 s = .ok report s' ∧ mergeAll ps s' = .ok rest t := by
  obtain ⟨report, s', hp, h⟩ := bind_ok h
  obtain ⟨rest, t', hrest, h⟩ := bind_ok h
  cases h
  exact ⟨report, s', rest, hp, hrest⟩

theorem mergeAll_initialEntities {ps : List (Module × MergeOptions)} {reports : List MergeReport}
    (h : mergeAll ps s = .ok reports t) : s.initialEntities <+: t.initialEntities := by
  induction ps generalizing s reports with
  | nil =>
      cases h
      exact List.prefix_rfl
  | cons p ps ih =>
      obtain ⟨report, s', rest, hp, hrest⟩ := mergeAll_cons_ok h
      obtain ⟨c, -, -, hinitial⟩ := merge_ok hp
      exact (hinitial ▸ List.prefix_append ..).trans (ih hrest)

theorem Tracked.mergeAll_restorable_iff {ps : List (Module × MergeOptions)}
    {reports : List MergeReport} (hs : Tracked s) (hoff : ∀ p ∈ ps, p.2.overrideTypes = false)
    (h : mergeAll ps s = .ok reports t) (hroom : t.initialEntities.length ≤ 2 ^ 64) :
    t.Restorable ↔ s.Restorable ∧ Recoverable s ps := by
  induction ps generalizing s reports with
  | nil =>
      cases h
      exact (and_iff_left trivial).symm
  | cons p ps ih =>
      obtain ⟨report, s', rest, hp, hrest⟩ := mergeAll_cons_ok h
      rw [List.forall_mem_cons] at hoff
      obtain ⟨w, hmerges⟩ := merge_merges hs.reachable hoff.1 hp
      have hlen := (mergeAll_initialEntities hrest).length_le.trans hroom
      rw [ih (hmerges.tracked hs) hoff.2 hrest, hmerges.restorable_iff hs hlen, Recoverable,
        final_of_ok hp]
      tauto

theorem load_tracked {s₀ : Simulation} (hr : s₀.Reachable) (h : load m s₀ = .ok () s) :
    Tracked s := by
  have hreachable : s.Reachable := by
    have hload := hr.operation (.load m)
    unfold operate at hload
    dsimp only at hload
    rwa [final_of_ok h] at hload
  refine ⟨hreachable.world, fun v hv => ?_⟩
  obtain ⟨u, ids, hbare, hspawn⟩ := (load_fresh h).world
  have hspawns : Spawns s.initialEntities u s.world := ⟨ids, hspawn⟩
  have hakin : Akin (AgreeLoose s.world) u s.world.clearEntities := by
    refine hbare.akin hreachable.world.sound.clearEntities_bare fun component init field _ => ?_
    rw [World.newRecord_congr ((clearEntities_schemas _).trans hspawns.schemas)]
  obtain ⟨v', hv', hagree⟩ := hakin.spawns hspawns
  obtain rfl := World.Spawns.unique hv' hv
  exact hagree

/-- After a load and merges that do not override types, a reset leads back to the entities that
there are just if no merge added an initial entity under an identifier that was live, and each merge
brought the records in line with the schemas. -/
theorem merged_restorable_iff {s₀ : Simulation} {ps : List (Module × MergeOptions)}
    {reports : List MergeReport} (hr : s₀.Reachable) (hload : load m s₀ = .ok () s)
    (hoff : ∀ p ∈ ps, p.2.overrideTypes = false) (h : mergeAll ps s = .ok reports t)
    (hroom : t.initialEntities.length ≤ 2 ^ 64) : t.Restorable ↔ Recoverable s ps := by
  have hrestorable : s.Restorable := by
    obtain ⟨u, k, hreset, halike, -⟩ := reset_fresh (load_fresh hload) (.refl s)
    exact ⟨u, k, hreset, halike.engine.world⟩
  rw [(load_tracked hr hload).mergeAll_restorable_iff hoff h hroom, and_iff_right hrestorable]

def camp : Module where
  version := "1.0"
  name := "camp"
  initialState := some [⟨none, some "guard", [], []⟩]

def patrol : Module where
  version := "1.0"
  name := "patrol"
  initialState := some [⟨some 0, some "ranger", [], []⟩]

def kitchen : Module where
  version := "1.0"
  name := "kitchen"
  initialState := some [⟨none, some "cook", [], []⟩]

def joining (m : Module) : Module × MergeOptions := (m, { mergeEntities := true })

theorem camp_restorable : ∃ s, load camp (new {}) = .ok () s ∧
    (∃ reports t, mergeAll [joining kitchen] s = .ok reports t ∧ t.Restorable) ∧
    ∃ reports t, mergeAll [joining patrol] s = .ok reports t ∧ ¬ t.Restorable := by
  have hload : load camp (new {}) = .ok () (final (load camp) (new {})) := by rfl
  have hmerge (m : Module) (hm : m = kitchen ∨ m = patrol) : ∃ reports,
      mergeAll [joining m] (final (load camp) (new {})) =
        .ok reports (final (mergeAll [joining m]) (final (load camp) (new {}))) := by
    rcases hm with rfl | rfl
    · exact ⟨_, by rfl⟩
    · exact ⟨_, by rfl⟩
  obtain ⟨_, hkitchen⟩ := hmerge kitchen (.inl rfl)
  obtain ⟨_, hpatrol⟩ := hmerge patrol (.inr rfl)
  refine ⟨_, hload, ⟨_, _, hkitchen, ?_⟩, _, _, hpatrol, fun h => ?_⟩
  · refine (merged_restorable_iff (.new {}) hload (by decide) hkitchen (by decide +kernel)).mpr ?_
    refine ⟨?_, ?_, trivial⟩
    · rintro ⟨d, hd, n, hn, -⟩
      cases List.mem_singleton.mp hd
      cases hn
    · intro id component field hhas
      cases hhas
  · refine ((merged_restorable_iff (.new {}) hload (by decide) hpatrol (by decide +kernel)).mp h).1 ?_
    exact ⟨_, List.mem_singleton_self _, 0, rfl, by decide +kernel⟩

/-- A reset after a merge may fail. -/
theorem merged_not_restorable : ¬ ∀ (m : Module) (s₀ s t : Simulation)
    (ps : List (Module × MergeOptions)) (reports : List MergeReport), s₀.Reachable →
      load m s₀ = .ok () s → (∀ p ∈ ps, p.2.overrideTypes = false) →
        mergeAll ps s = .ok reports t → t.Restorable := by
  intro h
  have hload : load camp (new {}) = .ok () (final (load camp) (new {})) := by rfl
  have hmerge : ∃ reports, mergeAll [joining patrol] (final (load camp) (new {})) =
      .ok reports (final (mergeAll [joining patrol]) (final (load camp) (new {}))) := ⟨_, by rfl⟩
  obtain ⟨reports, hmerge⟩ := hmerge
  have hfails : ∃ e t, reset (final (mergeAll [joining patrol]) (final (load camp) (new {}))) =
      .error e t := ⟨_, _, by rfl⟩
  obtain ⟨e, u, hfails⟩ := hfails
  obtain ⟨t, k, hreset, -⟩ := h camp (new {}) _ _ _ reports (.new {}) hload (by decide) hmerge
  cases hreset.symm.trans hfails

end Simulation

end RuleSim
