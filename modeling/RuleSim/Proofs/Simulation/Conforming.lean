import RuleSim.Proofs.Simulation.Merged
import RuleSim.Proofs.World.Furnished
import RuleSim.Proofs.World.Typed

namespace RuleSim

namespace World

def Suits (w : World) (component field : String) (v : Option Value) : Prop :=
  ∃ f x, w.fieldSchema? component field = some f ∧ v = some x ∧ f.type.coerce x = x

/-- Who carries a declared component holds, in each of its declared fields, a value of the
registered type. -/
def Conforms (w : World) (ds : List ComponentDecl) : Prop :=
  ∀ id component d, w.hasComponent id component = true → d ∈ declaredFields ds component →
    w.Suits component d.name (w.field? id component d.name)

/-- A created entity carries what is declared for it. -/
theorem Furnished.hasComponent_iff {w w' : World} {e : EntityDecl} {id : EntityId}
    (h : Furnished w w' e id) {component : String} :
    w'.hasComponent id component = true ↔ ∃ init, e.init? component = some init := by
  rw [World.hasComponent_iff, and_iff_right h.live]
  change (w'.component? id component).isSome = true ↔ _
  rw [h.record, Option.isSome_map, Option.isSome_iff_exists]

theorem Furnished.field? {w w' : World} {e : EntityDecl} {id : EntityId}
    (h : Furnished w w' e id) {component : String} {init : List (String × Value)}
    (hinit : e.init? component = some init) (field : String) : w'.field? id component field =
      w.components.initially component field ((Table.ofList init).find? field) := by
  rw [field?_eq, h.record, hinit]
  exact w.components.find?_newRecord component init field

theorem suits_congr {w w' : World} (h : w'.components.schemas = w.components.schemas)
    (component field : String) (v : Option Value) :
    w'.Suits component field v ↔ w.Suits component field v := by
  unfold Suits
  rw [fieldSchema?_congr h]

/-- A record that was brought in line with made fields holds values of the types that the schema has
for them in the end. -/
theorem find?_align_upsertFields (s : ComponentSchema) (r : Record) {fs : List FieldSchema}
    (hmade : ∀ f ∈ fs, f.Made) {n : String} (h : ∃ f ∈ fs, f.name = n) :
    ∃ f x, (s.upsertFields fs).field? n = some f ∧ Table.find? (align fs r) n = some x ∧
      f.type.coerce x = x := by
  induction fs using List.reverseRecOn with
  | nil =>
      obtain ⟨f, hf, -⟩ := h
      cases hf
  | append_singleton fs f ih =>
      obtain ⟨hfs, hf⟩ := List.forall_mem_append.mp hmade
      have hschema := (s.upsertFields fs).field?_upsertField f n
      have halign : align (fs ++ [f]) r = alignField f (align fs r) := List.foldl_append
      rw [ComponentSchema.upsertFields_append, halign, find?_alignField]
      change ∃ g x, ((s.upsertFields fs).upsertField f).field? n = some g ∧ _
      rw [hschema]
      by_cases hn : n = f.name
      · rw [if_pos hn, if_pos hn]
        refine ⟨f, _, rfl, rfl, ?_⟩
        cases Table.find? (align fs r) f.name with
        | none => exact (hf f (List.mem_singleton_self f)).coerce_default
        | some x => exact f.type.coerce_coerce x
      · rw [if_neg hn, if_neg hn]
        obtain ⟨g, hg, hname⟩ := h
        refine ih hfs ⟨g, (List.mem_append.mp hg).resolve_right fun hgf => ?_, hname⟩
        exact hn (List.mem_singleton.mp hgf ▸ hname.symm)

end World

namespace Merge

variable {m : Module} {options : MergeOptions} {w w' : World} {ds : List ComponentDecl}
  {id : EntityId} {component field : String}

def Brings (w : World) (ds : List ComponentDecl) (component field : String) : Prop :=
  ∃ s f, w.schema? component = some s ∧ f ∈ s.adopted (declaredFields ds component) ∧
    f.name = field

/-- What is brought to the declared type suits. -/
theorem Brings.suits (hb : Brings w ds component field) (hw : w.Titled)
    (hid : w.components.has id component = true) :
    (adoptAll w ds).Suits component field ((adoptAll w ds).field? id component field) := by
  obtain ⟨s, f, hs, hf, hname⟩ := hb
  obtain ⟨r, hr⟩ := Option.isSome_iff_exists.mp hid
  have hmade : ∀ f ∈ s.adopted (declaredFields ds component), f.Made := by
    intro f hf
    obtain ⟨d, -, rfl, -⟩ := ComponentSchema.mem_adopted hf
    exact ⟨_, _, _, rfl⟩
  obtain ⟨g, x, hg, hx, hfix⟩ := World.find?_align_upsertFields s r hmade ⟨f, hf, hname⟩
  refine ⟨g, x, ?_, ?_, hfix⟩
  · rw [World.fieldSchema?, schema?_adoptAll hw hs, Option.bind_some, hg]
  · have hr : w.component? id component = some r := hr
    rw [World.field?_eq, component?_adoptAll, hs, hr]
    exact hx

/-- What is not brought to another type stays as it is. -/
theorem field?_of_not_brings (hb : ¬ Brings w ds component field) (id : EntityId) :
    (adoptAll w ds).field? id component field = w.field? id component field := by
  rw [World.field?_eq, World.field?_eq, component?_adoptAll]
  cases hs : w.schema? component with
  | none => rfl
  | some s =>
      have hne : ∀ f ∈ s.adopted (declaredFields ds component), field ≠ f.name :=
        fun f hf hname => hb ⟨s, f, hs, hf, hname.symm⟩
      cases w.component? id component with
      | none => rfl
      | some r => exact World.find?_align_of_ne hne r

theorem suits_adoptAll_iff (hw : w.Titled) (hid : w.components.has id component = true) :
    (adoptAll w ds).Suits component field ((adoptAll w ds).field? id component field) ↔
      Brings w ds component field ∨
        (adoptAll w ds).Suits component field (w.field? id component field) := by
  by_cases hb : Brings w ds component field
  · exact iff_of_true (hb.suits hw hid) (.inl hb)
  · rw [field?_of_not_brings hb, or_iff_right hb]

theorem has_adoptAll (w : World) (ds : List ComponentDecl) (id : EntityId) (component : String) :
    (adoptAll w ds).components.has id component = w.components.has id component := by
  change ((adoptAll w ds).component? id component).isSome = (w.component? id component).isSome
  rw [component?_adoptAll]
  cases w.schema? component with
  | none => rfl
  | some s => exact Option.isSome_map

/-- What a merge needs in order to leave all records in line, in terms of the schemas that come of
it. -/
structure Prepared (m : Module) (options : MergeOptions) (w : World) : Prop where
  held : ∀ id component d, w.hasComponent id component = true →
    d ∈ declaredFields m.components component → Brings w m.components component d.name ∨
      (adoptAll w m.components).Suits component d.name (w.field? id component d.name)
  given : ∀ e ∈ created m options w, ∀ component init d, e.init? component = some init →
    d ∈ declaredFields m.components component →
      (adoptAll w m.components).Suits component d.name
        ((adoptAll w m.components).components.initially component d.name
          ((Table.ofList init).find? d.name))

end Merge

namespace Content

open Merge

variable {m : Module} {options : MergeOptions} {c c' : Content} {report : MergeReport}

section Merged

variable (hw : c.world.Reachable)
  (hroom : c.world.entityIds.length + (created m options c.world).length ≤ 2 ^ 64)
  (h : merge m options c = .ok report c')

include h

/-- A merge that succeeds creates its entities under the schemas that come of it. -/
theorem merge_spawns : World.Spawns (created m options c.world)
    (adoptAll c.world m.components) c'.world := by
  obtain ⟨-, -, ids, hspawn⟩ := merge_ok h
  exact ⟨ids, hspawn⟩

include hroom

theorem merge_spares {id : EntityId} (hid : id ∈ c.world.entities.live) :
    World.Spared id (adoptAll c.world m.components) c'.world := by
  obtain ⟨ids, hspawn⟩ := merge_spawns h
  have hplaces := samePlaces_adoptAll c.world m.components
  exact World.spawnAll_spares hspawn (hplaces.entities ▸ hroom) (hplaces.entities ▸ hid)

theorem merge_hasComponent {id : EntityId} (hid : id ∈ c.world.entities.live)
    (component : String) :
    c'.world.hasComponent id component = c.world.hasComponent id component := by
  have hspared := merge_spares hroom h hid
  have hplaces := samePlaces_adoptAll c.world m.components
  have hhas : c'.world.components.has id component = c.world.components.has id component := by
    rw [← has_adoptAll c.world m.components]
    exact congrArg Option.isSome (hspared.record component)
  have hlive : c'.world.hasEntity id = true :=
    decide_eq_true (hspared.live (hplaces.entities ▸ hid))
  rw [World.hasComponent, World.hasComponent, hhas, hlive]
  exact congrArg (· && _) (decide_eq_true hid).symm

include hw

theorem merge_suits_iff {id : EntityId} {component : String}
    (hid : c.world.hasComponent id component = true) (field : String) :
    c'.world.Suits component field (c'.world.field? id component field) ↔
      Brings c.world m.components component field ∨
        (adoptAll c.world m.components).Suits component field
          (c.world.field? id component field) := by
  obtain ⟨hlive, hid⟩ := World.hasComponent_iff.mp hid
  have hfield : c'.world.field? id component field =
      (adoptAll c.world m.components).field? id component field :=
    congrArg (Option.bind · (Table.find? · field)) ((merge_spares hroom h hlive).record component)
  rw [World.suits_congr (merge_spawns h).schemas, hfield, suits_adoptAll_iff hw.titled hid]

theorem conforms_iff_prepared :
    c'.world.Conforms m.components ↔ Prepared m options c.world := by
  have hplaces := samePlaces_adoptAll c.world m.components
  have hsound := ((adoptAll_asks c.world m.components).reachable hw).sound
  have hsuits := World.suits_congr (merge_spawns h).schemas
  obtain ⟨hcreated, hnew⟩ := (merge_spawns h).furnished hsound (hplaces.entities ▸ hroom)
  constructor
  · intro hconforms
    refine ⟨fun id component d hid hd => (merge_suits_iff hw hroom h hid d.name).mp ?_,
      fun e he component init d hinit hd => ?_⟩
    · have hlive := (World.hasComponent_iff.mp hid).1
      exact hconforms id component d ((merge_hasComponent hroom h hlive component).trans hid) hd
    · obtain ⟨id, hfurnished⟩ := hcreated e he
      have hd := hconforms id component d (hfurnished.hasComponent_iff.mpr ⟨init, hinit⟩) hd
      rwa [hsuits, hfurnished.field? hinit] at hd
  · intro hprepared id component d hid hd
    by_cases hlive : id ∈ c.world.entities.live
    · rw [merge_hasComponent hroom h hlive] at hid
      exact (merge_suits_iff hw hroom h hid d.name).mpr (hprepared.held id component d hid hd)
    · have hdead : id ∉ (adoptAll c.world m.components).entities.live := hplaces.entities ▸ hlive
      obtain ⟨e, he, hfurnished⟩ := hnew id hdead (World.hasComponent_iff.mp hid).1
      obtain ⟨init, hinit⟩ := hfurnished.hasComponent_iff.mp hid
      rw [hsuits, hfurnished.field? hinit]
      exact hprepared.given e he component init d hinit hd

end Merged

end Content

namespace Simulation

open Merge (Prepared created)

/-- After a merge all who carry a declared component hold values of the registered types in its
declared fields, just if the merge was prepared. -/
theorem merge_conforms_iff {m : Module} {options : MergeOptions} {s t : Simulation}
    {report : MergeReport} (hs : s.Reachable)
    (hroom : s.world.entityIds.length + (created m options s.world).length ≤ 2 ^ 64)
    (h : merge m options s = .ok report t) :
    t.world.Conforms m.components ↔ Prepared m options s.world := by
  obtain ⟨c, hcontent, hworld, -⟩ := merge_ok h
  rw [hworld]
  exact Content.conforms_iff_prepared hs.world hroom hcontent

def mine : Module where
  version := "1.0"
  name := "mine"
  initialState := some [⟨none, some "lamp", [("Lamp", [])], []⟩]

def workshop : Module :=
  { mine with components := [{ name := "Lamp", fields := [⟨"oil", .float, none⟩] }] }

def guild : Module where
  version := "1.0"
  name := "guild"
  components := [{ name := "Lamp", fields := [⟨"oil", .integer, none⟩, ⟨"wick", .string, none⟩] }]

def joined (m : Module) : Simulation :=
  final (merge guild { overrideTypes := true }) (final (load m) (new {}))

theorem guild_conforms : ∃ report, merge guild { overrideTypes := true }
    (final (load workshop) (new {})) = .ok report (joined workshop) ∧
      (joined workshop).world.Conforms guild.components := by
  have hreachable : (final (load workshop) (new {})).Reachable :=
    (Reachable.new {}).operation (.load workshop)
  have hmerge : ∃ report, merge guild { overrideTypes := true } (final (load workshop) (new {})) =
      .ok report (joined workshop) := ⟨_, by rfl⟩
  obtain ⟨report, hmerge⟩ := hmerge
  refine ⟨report, hmerge, ?_⟩
  refine (merge_conforms_iff hreachable (by decide +kernel) hmerge).mpr ⟨?_, fun e he => ?_⟩
  · intro id component d hid hd
    obtain ⟨c, hc, hd⟩ := List.mem_flatMap.mp hd
    obtain ⟨hc, hname⟩ := List.mem_filter.mp hc
    obtain rfl := List.mem_singleton.mp hc
    obtain rfl : "Lamp" = component := of_decide_eq_true hname
    refine .inl ⟨_, .ofDecl d, rfl, ?_, rfl⟩
    rcases List.mem_cons.mp hd with rfl | hd
    · decide +kernel
    · obtain rfl := List.mem_singleton.mp hd
      decide +kernel
  · cases he

/-- A merge may leave records without the declared fields. -/
theorem merge_not_conforms : ¬ ∀ (doc doc' : Json) (m m' : Module) (options : MergeOptions)
    (s t : Simulation) (report : MergeReport), Module.load doc = .ok m →
      load m (new {}) = .ok () s → Module.load doc' = .ok m' →
        merge m' options s = .ok report t → t.world.Conforms m'.components := by
  intro h
  have hmine : Module.load mine.toJson = .ok mine := by rfl
  have hguild : Module.load guild.toJson = .ok guild := by rfl
  have hload : load mine (new {}) = .ok () (final (load mine) (new {})) := by rfl
  have hmerge : ∃ report, merge guild { overrideTypes := true } (final (load mine) (new {})) =
      .ok report (joined mine) := ⟨_, by rfl⟩
  obtain ⟨report, hmerge⟩ := hmerge
  have hconforms := h _ _ _ _ _ _ _ report hmine hload hguild hmerge
  obtain ⟨f, x, -, hx, -⟩ := hconforms (.ofNat 0) "Lamp" ⟨"wick", .string, none⟩ (by rfl)
    (List.mem_cons_of_mem _ (List.mem_singleton_self _))
  have hnone : (joined mine).world.field? (.ofNat 0) "Lamp" "wick" = none := by rfl
  cases hnone.symm.trans hx

end Simulation

end RuleSim
