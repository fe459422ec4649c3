import RuleSim.Proofs.Content.Adopted
import RuleSim.Proofs.Simulation.Reachable
import RuleSim.Proofs.World.Spared

namespace RuleSim

namespace RuleSet

/-- All that one rule set has stands in the other in the same order, and means the same. -/
structure Extends (s t : RuleSet) : Prop where
  rules : s.rules <+: t.rules
  order : ∀ event, (s.rulesFor event).Sublist (t.rulesFor event)
  functions : ∀ name f, s.function? name = some f → t.function? name = some f
  constants : ∀ name v, s.constant? name = some v → t.constant? name = some v

theorem Extends.refl (s : RuleSet) : Extends s s :=
  ⟨List.prefix_rfl, fun _ => .refl _, fun _ _ h => h, fun _ _ h => h⟩

theorem Extends.trans {s t u : RuleSet} (h : Extends s t) (h' : Extends t u) : Extends s u :=
  ⟨h.rules.trans h'.rules, fun event => (h.order event).trans (h'.order event),
    fun name f hf => h'.functions name f (h.functions name f hf),
    fun name v hv => h'.constants name v (h.constants name v hv)⟩

theorem sublist_place (r : Rule) (rules : List Rule) : rules.Sublist (place r rules) := by
  induction rules with
  | nil => exact List.nil_sublist _
  | cons s rest ih =>
      rw [place]
      split
      · exact ih.cons_cons s
      · exact List.sublist_cons_self r (s :: rest)

theorem extends_addRule (s : RuleSet) (d : RuleDecl) : Extends s (s.addRule d) where
  rules := List.prefix_append ..
  order event := by
    rw [rulesFor_addRule]
    split
    · exact sublist_place ..
    · exact .refl _
  functions _ _ h := h
  constants _ _ h := h

theorem find?_put_of_free {α : Type} {t : Table String α} {k l : String} {v x : α}
    (hfree : t.contains k = false) (h : t.find? l = some x) :
    (Table.put t k v).find? l = some x := by
  rw [Table.find?_put]
  split
  · next hl =>
      rw [hl] at h
      simp [Table.contains, h] at hfree
  · exact h

theorem extends_addFunction (s : RuleSet) (f : FunctionDecl) : Extends s (s.addFunction f).2 := by
  unfold addFunction
  split
  · exact .refl s
  · next hfree =>
      refine ⟨List.prefix_rfl, fun _ => .refl _, fun name g hg => ?_, fun _ _ h => h⟩
      exact find?_put_of_free (Bool.eq_false_iff.mpr hfree) hg

theorem extends_addConstant (s : RuleSet) (name : String) (v : Value) :
    Extends s (s.addConstant name v) := by
  unfold addConstant
  split
  · exact .refl s
  · next hfree =>
      refine ⟨List.prefix_rfl, fun _ => .refl _, fun _ _ h => h, fun name x hx => ?_⟩
      exact find?_put_of_free (Bool.eq_false_iff.mpr hfree) hx

theorem extends_addRules (s : RuleSet) (ds : List RuleDecl) : Extends s (s.addRules ds) := by
  induction ds generalizing s with
  | nil => exact .refl s
  | cons d ds ih => exact (s.extends_addRule d).trans (ih (s.addRule d))

theorem extends_addFunctions (s : RuleSet) (fs : List FunctionDecl) :
    Extends s (s.addFunctions fs).2 := by
  induction fs generalizing s with
  | nil => exact .refl s
  | cons f fs ih => exact (s.extends_addFunction f).trans (ih (s.addFunction f).2)

theorem extends_addConstants (s : RuleSet) (constants : Fields Value) :
    Extends s (s.addConstants constants) := by
  induction constants generalizing s with
  | nil => exact .refl s
  | cons p constants ih =>
      exact (s.extends_addConstant p.1 p.2).trans (ih (s.addConstant p.1 p.2))

theorem extends_withModule (s : RuleSet) (m : Module) (rules : List RuleDecl) :
    Extends s (s.withModule m rules) :=
  ((s.extends_addRules rules).trans (extends_addFunctions ..)).trans (extends_addConstants ..)

end RuleSet

namespace ComponentSchema

theorem upsert_kept {R : FieldSchema → FieldSchema → Prop}
    (hname : ∀ g g', R g g' → g'.name = g.name) {fields kept : List FieldSchema}
    (h : List.Forall₂ R fields kept) (added : List FieldSchema) (f : FieldSchema) :
    ∃ kept' added', upsert (kept ++ added) f = kept' ++ added' ∧
      List.Forall₂ (fun g g' => R g g' ∨
        g' = f ∧ f.name = g.name ∧ fields.find? (·.name = f.name) = some g) fields kept' := by
  induction h with
  | nil => exact ⟨[], upsert added f, rfl, .nil⟩
  | @cons g g' fields kept hg hrest ih =>
      rw [List.cons_append, upsert]
      split
      · next heq =>
          have hgf : g.name = f.name := (hname g g' hg).symm.trans heq
          refine ⟨f :: kept, added, rfl, .cons (.inr ⟨rfl, hgf.symm, ?_⟩) ?_⟩
          · simp [hgf]
          · exact hrest.imp fun _ _ => .inl
      · next hne =>
          obtain ⟨kept', added', hupsert, hkept⟩ := ih
          refine ⟨g' :: kept', added', by rw [hupsert, List.cons_append], .cons (.inl hg) ?_⟩
          refine hkept.imp fun x x' hx => hx.imp_right ?_
          rintro ⟨hx', hxf, hfind⟩
          have hgf : g.name ≠ f.name := fun heq => hne ((hname g g' hg).trans heq)
          exact ⟨hx', hxf, by simpa [hgf] using hfind⟩

/-- Each field stays, or one of the further fields takes its place. -/
theorem upsertFields_kept (s : ComponentSchema) (fs : List FieldSchema) :
    ∃ kept added, s.upsertFields fs = ⟨s.name, kept ++ added⟩ ∧
      List.Forall₂ (fun g g' => g' = g ∨ g' ∈ fs ∧ g'.name = g.name ∧ s.field? g.name = some g)
        s.fields kept := by
  induction fs using List.reverseRecOn with
  | nil =>
      refine ⟨s.fields, [], by rw [List.append_nil]; rfl, ?_⟩
      exact List.forall₂_same.mpr fun _ _ => .inl rfl
  | append_singleton fs f ih =>
      obtain ⟨kept, added, hfs, hkept⟩ := ih
      have hname (g g' : FieldSchema)
          (h : g' = g ∨ g' ∈ fs ∧ g'.name = g.name ∧ s.field? g.name = some g) :
          g'.name = g.name := by
        rcases h with rfl | ⟨-, h, -⟩
        · rfl
        · exact h
      obtain ⟨kept', added', hupsert, hkept'⟩ := upsert_kept hname hkept added f
      refine ⟨kept', added', ?_, hkept'.imp fun g g' h => ?_⟩
      · rw [upsertFields_append, hfs]
        exact congrArg (mk s.name) hupsert
      · rcases h with (rfl | ⟨hmem, hg⟩) | ⟨rfl, hg, hfind⟩
        · exact .inl rfl
        · exact .inr ⟨List.mem_append_left _ hmem, hg⟩
        · exact .inr ⟨List.mem_append_right _ (List.mem_singleton_self _), hg, hg ▸ hfind⟩

end ComponentSchema

namespace Merge

/-- A field of a schema stays with its type and default, unless types may be overridden and the
module declares the field with another one. -/
def FieldKept (m : Module) (options : MergeOptions) (component : String) (g g' : FieldSchema) :
    Prop :=
  g' = g ∨ options.overrideTypes = true ∧ ∃ d ∈ declaredFields m.components component,
    d.name = g.name ∧ d.type ≠ g.type ∧ g' = .ofDecl d

/-- A merge brings a field to a type if the schema of the component has no such field yet, or if
types may be overridden and the schema has it with another type. -/
def Adopts (options : MergeOptions) (w : World) (component field : String) (t : FieldType) : Prop :=
  ∃ s, w.schema? component = some s ∧
    ∀ g ∈ s.field? field, options.overrideTypes = true ∧ t ≠ g.type

structure Conserves (m : Module) (options : MergeOptions) (w w' : World) : Prop where
  schemas : ∀ component s, w.schema? component = some s → ∃ kept added,
    w'.schema? component = some ⟨s.name, kept ++ added⟩ ∧
      List.Forall₂ (FieldKept m options component) s.fields kept
  entities : ∀ id, w.hasEntity id = true → w'.hasEntity id = true ∧
    w'.componentsOf id = w.componentsOf id ∧ w'.functionsOf id = w.functionsOf id
  /-- A value goes through some of the types that the module declares for its field, in order;
  without any of them it stays as it is. -/
  values : ∀ id component field v, w.hasEntity id = true → w.field? id component field = some v →
    ∃ types : List FieldType,
      types.Sublist (((declaredFields m.components component).filter (·.name = field)).map (·.type)) ∧
      (∀ t ∈ types, Adopts options w component field t) ∧
      w'.field? id component field = some (types.foldl (fun v t => t.coerce v) v)
  names : ∀ name id, w.entityByName? name = some id →
    (∀ d ∈ created m options w, d.name ≠ some name) → w'.entityByName? name = some id

/-- What a record holds under a name before and after its component adopted the declared fields. -/
theorem field?_adoptAll {w : World} {ds : List ComponentDecl} {id : EntityId}
    {component field : String} {v : Value} (h : w.field? id component field = some v) :
    (adoptAll w ds).field? id component field = some ((w.schema? component).elim v fun s =>
      (((s.adopted (declaredFields ds component)).filter (·.name = field)).map (·.type)).foldl
        (fun v t => t.coerce v) v) := by
  obtain ⟨r, hr, hv⟩ := Option.bind_eq_some_iff.mp h
  have hr : w.component? id component = some r := hr
  change ((adoptAll w ds).component? id component).bind (Table.find? · field) = _
  rw [component?_adoptAll, hr]
  cases w.schema? component with
  | none => exact hv
  | some s => exact World.find?_align hv

/-- The types that a record goes through are declared in that order. -/
theorem adoptedTypes_sublist (s : ComponentSchema) (ds : List FieldDecl) (field : String) :
    (((s.adopted ds).filter (·.name = field)).map (·.type)).Sublist
      ((ds.filter (·.name = field)).map (·.type)) := by
  unfold ComponentSchema.adopted
  rw [List.filter_map, List.map_map]
  exact (List.filter_sublist.filter _).map _

end Merge

namespace Content

open Merge

variable {m : Module} {options : MergeOptions} {c c' : Content} {report : MergeReport}

theorem merge_schemas (hw : c.world.Reachable) (h : merge m options c = .ok report c')
    {component : String} {s : ComponentSchema} (hs : c.world.schema? component = some s) :
    ∃ kept added, c'.world.schema? component = some ⟨s.name, kept ++ added⟩ ∧
      List.Forall₂ (FieldKept m options component) s.fields kept := by
  obtain ⟨⟨changes, hplan⟩, -, ids, hspawn⟩ := merge_ok h
  obtain ⟨kept, added, hfields, hkept⟩ :=
    s.upsertFields_kept (s.adopted (declaredFields m.components component))
  have hkeeps := (World.spawnAll_asks (adoptAll c.world m.components)
    (created m options c.world)).keeps.schemas
  rw [final_of_ok hspawn] at hkeeps
  refine ⟨kept, added, ?_, hkept.imp fun g g' hg => hg.imp_right ?_⟩
  · rw [World.schema?, ComponentStore.schema?, hkeeps, ← hfields]
    exact schema?_adoptAll hw.titled hs m.components
  · rintro ⟨hmem, hname, hfind⟩
    obtain ⟨d, hd, rfl, htype⟩ := adopted_of_ok hplan hs hmem
    have hdg : d.name = g.name := hname
    obtain ⟨ho, hne⟩ := htype g (hdg ▸ hfind)
    exact ⟨ho, d, hd, hdg, hne.symm, rfl⟩

theorem merge_values (h : merge m options c = .ok report c')
    (hroom : c.world.entityIds.length + (created m options c.world).length ≤ 2 ^ 64)
    {id : EntityId} (hid : c.world.hasEntity id = true) {component field : String} {v : Value}
    (hv : c.world.field? id component field = some v) : ∃ types : List FieldType,
      types.Sublist (((declaredFields m.components component).filter (·.name = field)).map (·.type)) ∧
      (∀ t ∈ types, Adopts options c.world component field t) ∧
      c'.world.field? id component field = some (types.foldl (fun v t => t.coerce v) v) := by
  obtain ⟨⟨changes, hplan⟩, -, ids, hspawn⟩ := merge_ok h
  have hplaces := samePlaces_adoptAll c.world m.components
  have hspared := World.spawnAll_spares hspawn (hplaces.entities ▸ hroom)
    (hplaces.entities ▸ of_decide_eq_true hid)
  have hfield : c'.world.field? id component field =
      (adoptAll c.world m.components).field? id component field :=
    congrArg (Option.bind · (Table.find? · field)) (hspared.record component)
  rw [hfield, field?_adoptAll hv]
  cases hs : c.world.schema? component with
  | none => exact ⟨[], List.nil_sublist _, fun _ => nofun, rfl⟩
  | some s =>
      refine ⟨_, adoptedTypes_sublist s _ field, fun t ht => ⟨s, hs, ?_⟩, rfl⟩
      obtain ⟨f, hf, rfl⟩ := List.mem_map.mp ht
      obtain ⟨hf, hname⟩ := List.mem_filter.mp hf
      obtain ⟨d, -, rfl, htype⟩ := adopted_of_ok hplan hs hf
      have hdf : d.name = field := of_decide_eq_true hname
      intro g hg
      obtain ⟨ho, hne⟩ := htype g (hdf ▸ hg)
      exact ⟨ho, hne.symm⟩

/-- Whatever a merge adds, what was there before stays as it was, but for the fields that the module
declares anew. -/
theorem merge_conservative (hw : c.world.Reachable)
    (hroom : c.world.entityIds.length + (created m options c.world).length ≤ 2 ^ 64)
    (h : merge m options c = .ok report c') :
    Conserves m options c.world c'.world ∧ c.rules.Extends c'.rules := by
  obtain ⟨-, hrules, ids, hspawn⟩ := merge_ok h
  have hplaces := samePlaces_adoptAll c.world m.components
  have hspared (id : EntityId) (hid : c.world.hasEntity id = true) :
      World.Spared id (adoptAll c.world m.components) c'.world :=
    World.spawnAll_spares hspawn (hplaces.entities ▸ hroom)
      (hplaces.entities ▸ of_decide_eq_true hid)
  have hlive (id : EntityId) (hid : c.world.hasEntity id = true) : c'.world.hasEntity id = true :=
    decide_eq_true ((hspared id hid).live (hplaces.entities ▸ of_decide_eq_true hid))
  refine ⟨⟨fun _ _ => merge_schemas hw h, fun id hid => ⟨hlive id hid, ?_, ?_⟩,
    fun _ _ _ _ hid hv => merge_values h hroom hid hv, fun name id hid hname => ?_⟩, ?_⟩
  · exact (hspared id hid).components.trans (hplaces.components id)
  · refine (hspared id hid).functions.trans ?_
    rw [World.functionsOf, hplaces.bound]
    rfl
  · obtain ⟨hfind, hlives⟩ := Option.filter_eq_some_iff.mp hid
    refine Option.filter_eq_some_iff.mpr ⟨?_, hlive id hlives⟩
    rw [World.spawnAll_names hspawn hname, hplaces.names, hfind]
  · rw [hrules]
    exact RuleSet.extends_withModule ..

def cellar : Module where
  version := "1.0"
  name := "cellar"
  components := [{ name := "Lamp", fields := [⟨"oil", .float, some (.float (.ofRatio 5 2))⟩] }]
  rules := [{ trigger := .onEvent "dusk", actions := [] }]
  initialState := some [⟨none, some "lamp", [("Lamp", [])], []⟩]

def refit : Module where
  version := "1.0"
  name := "refit"
  components := [{ name := "Lamp", fields := [⟨"oil", .integer, none⟩, ⟨"wick", .string, none⟩] }]
  rules := [{ trigger := .onEvent "dusk", priority := 1, actions := [] }]
  initialState := some [⟨none, some "torch", [], []⟩]

def lit : Content := final (install cellar) {}

theorem refit_conservative : ∃ report c', merge refit ⟨true, false, true⟩ lit = .ok report c' ∧
    c'.world.field? (.ofNat 0) "Lamp" "oil" = some (.int 2) ∧
    Conserves refit ⟨true, false, true⟩ lit.world c'.world ∧ lit.rules.Extends c'.rules := by
  have hw : lit.world.Reachable := (install_leads cellar {}).reachable .empty
  have hmerge : ∃ report, merge refit ⟨true, false, true⟩ lit =
      .ok report (final (merge refit ⟨true, false, true⟩) lit) := ⟨_, by rfl⟩
  obtain ⟨report, hmerge⟩ := hmerge
  exact ⟨report, _, hmerge, by decide +kernel, merge_conservative hw (by decide +kernel) hmerge⟩

end Content

end RuleSim
