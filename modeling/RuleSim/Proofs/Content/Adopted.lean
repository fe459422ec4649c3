import RuleSim.Proofs.Content.Installed
import RuleSim.Proofs.World.Schemas

namespace RuleSim

def declaredFields (ds : List ComponentDecl) (component : String) : List FieldDecl :=
  (ds.filter (·.name = component)).flatMap (·.fields)

namespace ComponentSchema

def lacks (s : ComponentSchema) (d : FieldDecl) : Bool := (s.field? d.name).all (·.type ≠ d.type)

def adopted (s : ComponentSchema) (ds : List FieldDecl) : List FieldSchema :=
  (ds.filter s.lacks).map .ofDecl

theorem mem_adopted {s : ComponentSchema} {ds : List FieldDecl} {f : FieldSchema}
    (h : f ∈ s.adopted ds) : ∃ d ∈ ds, f = .ofDecl d ∧ ∀ g ∈ s.field? d.name, g.type ≠ d.type := by
  obtain ⟨d, hd, rfl⟩ := List.mem_map.mp h
  obtain ⟨hd, hlacks⟩ := List.mem_filter.mp hd
  refine ⟨d, hd, rfl, fun g hg => ?_⟩
  rw [lacks, Option.mem_def.mp hg] at hlacks
  exact of_decide_eq_true hlacks

theorem adopted_append (s : ComponentSchema) (ds es : List FieldDecl) :
    s.adopted (ds ++ es) = s.adopted ds ++ s.adopted es := by
  rw [adopted, List.filter_append, List.map_append, adopted, adopted]

theorem adopted_cons (s : ComponentSchema) (d : FieldDecl) (ds : List FieldDecl) :
    s.adopted (d :: ds) = if s.lacks d then .ofDecl d :: s.adopted ds else s.adopted ds := by
  rw [adopted, List.filter_cons]
  split <;> rfl

end ComponentSchema

namespace Merge

open World (Titled SamePlaces align)

variable {w v : World} {overrideTypes : Bool}

/-- A declared field that the schema lacks is planned, unless another type stands in its place that
may not be overridden; one that the schema has is passed over. -/
theorem planFields_cons_ok {s : ComponentSchema} {d : FieldDecl} {ds : List FieldDecl}
    {fields : List FieldChange} (h : planFields s overrideTypes (d :: ds) = .ok fields) :
    s.lacks d = false ∧ planFields s overrideTypes ds = .ok fields ∨
      s.lacks d = true ∧ (overrideTypes = false → s.field? d.name = none) ∧
        ∃ c rest, planFields s overrideTypes ds = .ok rest ∧ fields = c :: rest ∧
          c.schema = .ofDecl d := by
  rw [planFields] at h
  cases hf : s.field? d.name with
  | none =>
      rw [hf] at h
      obtain ⟨rest, hp, h⟩ := bind_ok_iff.mp h
      obtain rfl := pure_ok_iff.mp h
      exact .inr ⟨by rw [ComponentSchema.lacks, hf]; rfl, fun _ => rfl, _, rest, hp, rfl, rfl⟩
  | some current =>
      rw [hf] at h
      dsimp only at h
      by_cases htype : current.type = d.type
      · rw [if_pos htype] at h
        exact .inl ⟨by simp [ComponentSchema.lacks, hf, htype], h⟩
      rw [if_neg htype] at h
      cases overrideTypes with
      | false => cases h
      | true =>
          obtain ⟨rest, hp, h⟩ := bind_ok_iff.mp h
          obtain rfl := pure_ok_iff.mp h
          exact .inr ⟨by simp [ComponentSchema.lacks, hf, htype], nofun, _, rest, hp, rfl, rfl⟩

theorem planFields_ok {s : ComponentSchema} {ds : List FieldDecl} {fields : List FieldChange}
    (h : planFields s overrideTypes ds = .ok fields) : fields.map (·.schema) = s.adopted ds ∧
      (overrideTypes = false → ∀ f ∈ s.adopted ds, s.field? f.name = none) := by
  induction ds generalizing fields with
  | nil =>
      obtain rfl := Except.ok.inj h
      exact ⟨rfl, fun _ _ => nofun⟩
  | cons d ds ih =>
      rw [ComponentSchema.adopted_cons]
      rcases planFields_cons_ok h with ⟨hlacks, hp⟩ | ⟨hlacks, hfree, c, rest, hp, rfl, hc⟩
      · rw [hlacks]
        exact ih hp
      · obtain ⟨hrest, hnew⟩ := ih hp
        rw [hlacks, if_pos rfl]
        refine ⟨?_, fun ho => List.forall_mem_cons.mpr ⟨hfree ho, hnew ho⟩⟩
        rw [List.map_cons, hc, hrest]

/-- The world with what a component is declared to have, as the schemas of the first world say. -/
def adopt (w v : World) (d : ComponentDecl) : World :=
  match w.schema? d.name with
  | none => v.register (.ofDecl d)
  | some s => v.mergeFields d.name (s.adopted d.fields)

def adoptAll (w : World) (ds : List ComponentDecl) : World := ds.foldl (adopt w) w

theorem planSchemas_ok {ds : List ComponentDecl} {changes : List SchemaChange}
    (h : planSchemas w overrideTypes ds = .ok changes) :
    changes.foldl SchemaChange.apply v = ds.foldl (adopt w) v ∧
      (overrideTypes = false → ∀ d ∈ ds, ∀ s ∈ w.schema? d.name,
        ∀ f ∈ s.adopted d.fields, s.field? f.name = none) := by
  induction ds generalizing changes v with
  | nil =>
      obtain rfl := Except.ok.inj h
      exact ⟨rfl, fun _ _ => nofun⟩
  | cons d ds ih =>
      rw [planSchemas] at h
      rw [List.foldl_cons, adopt]
      cases hs : w.schema? d.name with
      | none =>
          rw [hs] at h
          obtain ⟨rest, hp, h⟩ := bind_ok_iff.mp h
          obtain rfl := pure_ok_iff.mp h
          refine ⟨(ih hp).1, fun ho => List.forall_mem_cons.mpr ⟨?_, (ih hp (v := v)).2 ho⟩⟩
          rw [hs]
          exact fun _ => nofun
      | some s =>
          rw [hs] at h
          obtain ⟨fields, hf, h⟩ := bind_ok_iff.mp h
          obtain ⟨rest, hp, h⟩ := bind_ok_iff.mp h
          obtain rfl := pure_ok_iff.mp h
          obtain ⟨hfields, hnew⟩ := planFields_ok hf
          constructor
          · dsimp only
            rw [← hfields, World.mergeFields, List.foldl_map]
            exact (ih hp).1
          · intro ho
            refine List.forall_mem_cons.mpr ⟨?_, (ih hp (v := v)).2 ho⟩
            rw [hs]
            rintro t ⟨⟩
            exact hnew ho

theorem adopted_of_ok {ds : List ComponentDecl} {changes : List SchemaChange}
    (h : planSchemas w overrideTypes ds = .ok changes) {k : String} {s : ComponentSchema}
    (hs : w.schema? k = some s) {f : FieldSchema} (hf : f ∈ s.adopted (declaredFields ds k)) :
    ∃ d ∈ declaredFields ds k, f = .ofDecl d ∧
      ∀ g ∈ s.field? d.name, overrideTypes = true ∧ g.type ≠ d.type := by
  obtain ⟨d, hd, rfl, htype⟩ := ComponentSchema.mem_adopted hf
  refine ⟨d, hd, rfl, fun g hg => ⟨?_, htype g hg⟩⟩
  by_contra ho
  obtain ⟨c, hc, hdc⟩ := List.mem_flatMap.mp hd
  obtain ⟨hc, hk⟩ := List.mem_filter.mp hc
  have hmem : FieldSchema.ofDecl d ∈ s.adopted c.fields := by
    refine List.mem_map_of_mem (List.mem_filter.mpr ⟨hdc, ?_⟩)
    rw [ComponentSchema.lacks, Option.mem_def.mp hg]
    exact decide_eq_true (htype g hg)
  have hnone := (planSchemas_ok (v := w) h).2 (Bool.eq_false_iff.mpr ho) c hc s
    (of_decide_eq_true hk ▸ hs) _ hmem
  cases hnone.symm.trans hg

theorem adopt_titled (h : Titled v) (d : ComponentDecl) : Titled (adopt w v d) := by
  unfold adopt
  split
  · exact h.register _
  · exact h.mergeFields _ _

theorem samePlaces_adoptAll (w : World) (ds : List ComponentDecl) :
    SamePlaces w (adoptAll w ds) := by
  have hall (v : World) : SamePlaces v (ds.foldl (adopt w) v) := by
    induction ds generalizing v with
    | nil => exact .refl v
    | cons d ds ih =>
        refine SamePlaces.trans ?_ (ih (adopt w v d))
        unfold adopt
        split
        · exact ⟨rfl, fun _ => rfl, rfl, rfl⟩
        · exact World.samePlaces_mergeFields ..
  exact hall w

theorem declaredFields_cons (d : ComponentDecl) (ds : List ComponentDecl) (k : String) :
    declaredFields (d :: ds) k =
      if d.name = k then d.fields ++ declaredFields ds k else declaredFields ds k := by
  unfold declaredFields
  rw [List.filter_cons]
  by_cases hk : d.name = k <;> simp [hk]

/-- A schema adopts what it lacked before the merge. -/
theorem schema?_adoptAll (h : Titled w) {k : String} {s : ComponentSchema}
    (hs : w.schema? k = some s) (ds : List ComponentDecl) :
    (adoptAll w ds).schema? k = some (s.upsertFields (s.adopted (declaredFields ds k))) := by
  have hall {v : World} (hv : Titled v) {t : ComponentSchema} (ht : v.schema? k = some t) :
      (ds.foldl (adopt w) v).schema? k =
        some (t.upsertFields (s.adopted (declaredFields ds k))) := by
    induction ds generalizing v t with
    | nil => exact ht
    | cons d ds ih =>
        have hd := adopt_titled (w := w) hv d
        rw [List.foldl_cons, declaredFields_cons]
        by_cases hk : d.name = k
        · rw [if_pos hk, ComponentSchema.adopted_append, ComponentSchema.upsertFields_append]
          apply ih hd
          rw [adopt, hk, hs]
          exact World.schema?_mergeFields k hv ht _
        · rw [if_neg hk]
          apply ih hd
          rw [adopt]
          split
          · exact (World.schema?_register ..).trans ((if_neg (Ne.symm hk)).trans ht)
          · exact (World.schema?_mergeFields_of_ne hv (Ne.symm hk) _).trans ht
  exact hall h hs

theorem instances_adopt {k : String} {s : ComponentSchema} (hs : w.schema? k = some s)
    {d : ComponentDecl} (hk : d.name = k) : (adopt w v d).components.instances k =
      (v.components.instances k).map fun p => (p.1, align (s.adopted d.fields) p.2) := by
  rw [adopt, hk, hs]
  exact (World.instances_mergeFields ..).trans (if_pos rfl)

theorem instances_adopt_of_ne {k : String} {d : ComponentDecl}
    (hk : d.name ≠ k ∨ w.schema? k = none) :
    (adopt w v d).components.instances k = v.components.instances k := by
  unfold adopt
  split
  · rfl
  · next s hs =>
      refine (World.instances_mergeFields ..).trans (if_neg fun heq => ?_)
      rcases hk with hk | hk
      · exact hk heq.symm
      · rw [heq, hs] at hk
        cases hk

theorem instances_adoptAll (w : World) (ds : List ComponentDecl) (k : String) :
    (adoptAll w ds).components.instances k = (w.schema? k).elim (w.components.instances k) fun s =>
      (w.components.instances k).map fun p => (p.1, align (s.adopted (declaredFields ds k)) p.2) := by
  cases hs : w.schema? k with
  | none =>
      have hall (v : World) :
          (ds.foldl (adopt w) v).components.instances k = v.components.instances k := by
        induction ds generalizing v with
        | nil => rfl
        | cons d ds ih => exact (ih (adopt w v d)).trans (instances_adopt_of_ne (.inr hs))
      exact hall w
  | some s =>
      have hall (v : World) : (ds.foldl (adopt w) v).components.instances k =
          (v.components.instances k).map fun p =>
            (p.1, align (s.adopted (declaredFields ds k)) p.2) := by
        induction ds generalizing v with
        | nil => exact (List.map_id _).symm
        | cons d ds ih =>
            rw [List.foldl_cons, ih, declaredFields_cons]
            by_cases hk : d.name = k
            · rw [if_pos hk, instances_adopt hs hk, List.map_map, ComponentSchema.adopted_append]
              unfold align
              simp only [List.foldl_append]
              rfl
            · rw [if_neg hk, instances_adopt_of_ne (.inl hk)]
      exact hall w

theorem component?_adoptAll (w : World) (ds : List ComponentDecl) (id : EntityId) (k : String) :
    (adoptAll w ds).component? id k = (w.schema? k).elim (w.component? id k) fun s =>
      (w.component? id k).map (align (s.adopted (declaredFields ds k))) := by
  rw [World.component?, ComponentStore.get?, instances_adoptAll]
  cases w.schema? k with
  | none => rfl
  | some s => exact Table.find?_map ..

/-- Schemas are registered and fields are merged, and nothing else is asked for. -/
theorem adoptAll_asks (w : World) (ds : List ComponentDecl) :
    World.Asks (fun _ => True) w (adoptAll w ds) := by
  have hfields (v : World) (component : String) (fs : List FieldSchema) :
      World.Asks (fun _ => True) v (v.mergeFields component fs) := by
    induction fs generalizing v with
    | nil => exact .refl v
    | cons f fs ih => exact (v.asks_perform (r := .mergeField component f) trivial).trans (ih _)
  have hall (v : World) : World.Asks (fun _ => True) v (ds.foldl (adopt w) v) := by
    induction ds generalizing v with
    | nil => exact .refl v
    | cons d ds ih =>
        refine World.Asks.trans ?_ (ih (adopt w v d))
        unfold adopt
        split
        · exact v.asks_perform (r := .register (.ofDecl d)) trivial
        · exact hfields ..
  exact hall w

end Merge

/-- A merge that succeeds has adopted what its components declare, has the rules of the module after
those from before, and has created the entities. -/
theorem Content.merge_ok {m : Module} {options : MergeOptions} {c c' : Content}
    {report : MergeReport} (h : merge m options c = .ok report c') :
    (∃ changes, Merge.planSchemas c.world options.overrideTypes m.components = .ok changes) ∧
      c'.rules = c.rules.withModule m
        (m.rules.map (Merge.shift (Merge.idOffset m c.rules options.shiftIds))) ∧
      ∃ ids, World.spawnAll (Merge.created m options c.world)
        (Merge.adoptAll c.world m.components) = .ok ids c'.world := by
  unfold merge at h
  rw [get_bind] at h
  cases hp : Merge.planSchemas c.world options.overrideTypes m.components with
  | error e =>
      rw [hp] at h
      cases h
  | ok changes =>
      rw [hp] at h
      dsimp only at h
      rw [set_bind] at h
      obtain ⟨ids, d, hspawn, hpure⟩ := bind_ok h
      cases hpure
      obtain ⟨w, hids, rfl⟩ := onWorld_ok hspawn
      refine ⟨⟨changes, rfl⟩, rfl, ids, ?_⟩
      rw [Merge.adoptAll, ← (Merge.planSchemas_ok hp).1]
      exact hids

end RuleSim
