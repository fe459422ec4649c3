import RuleSim.Proofs.World.Requests
import RuleSim.Proofs.World.Ordered

namespace RuleSim

namespace ComponentSchema

variable (s : ComponentSchema) (f : FieldSchema)

theorem find?_upsert (gs : List FieldSchema) (n : String) :
    (upsert gs f).find? (·.name = n) = if n = f.name then some f else gs.find? (·.name = n) := by
  induction gs with
  | nil =>
      rw [upsert, List.find?_cons]
      by_cases hn : n = f.name
      · simp [hn]
      · simp [hn, Ne.symm hn]
  | cons g gs ih =>
      rw [upsert]
      split
      · next hg =>
          rw [List.find?_cons, List.find?_cons, hg]
          by_cases hn : n = f.name
          · simp [hn]
          · simp [hn, Ne.symm hn]
      · next hg =>
          rw [List.find?_cons, List.find?_cons, ih]
          by_cases hn : n = f.name
          · subst hn
            simp [hg]
          · simp [hn]

theorem field?_upsertField (n : String) :
    (s.upsertField f).field? n = if n = f.name then some f else s.field? n :=
  find?_upsert f s.fields n

theorem find?_defaults_upsertField {n : String} (hn : n ≠ f.name) :
    (s.upsertField f).defaults.find? n = s.defaults.find? n := by
  unfold defaults upsertField
  dsimp only
  induction s.fields with
  | nil => simp [upsert, Table.find?_ofList_cons, hn]
  | cons g gs ih =>
      rw [upsert]
      split
      · next hg => simp [Table.find?_ofList_cons, hn, hg]
      · simp [Table.find?_ofList_cons, ih]

/-- A field that is not declared has no default. -/
theorem find?_defaults_of_none {n : String} (hn : s.field? n = none) :
    s.defaults.find? n = none := by
  have hne := List.find?_eq_none.mp hn
  unfold defaults
  generalize s.fields = fs at hne
  induction fs with
  | nil => rfl
  | cons g gs ih =>
      rw [List.forall_mem_cons] at hne
      have hg : n ≠ g.name := fun heq => hne.1 (decide_eq_true heq.symm)
      simp [Table.find?_ofList_cons, ih hne.2, hg]

theorem find?_instantiate (init : List (String × Value)) (n : String) :
    Table.find? (s.instantiate init) n =
      ((Table.find? (Table.ofList init) n).map (s.coerce n)).or (s.defaults.find? n) := by
  rw [instantiate, Table.find?_insertAll_ofList, ← Table.find?_ofList_map]

def upsertFields (fs : List FieldSchema) : ComponentSchema := fs.foldl upsertField s

theorem upsertFields_append (fs gs : List FieldSchema) :
    s.upsertFields (fs ++ gs) = (s.upsertFields fs).upsertFields gs := List.foldl_append

variable {s} in
theorem field?_upsertFields {fs : List FieldSchema} {n : String} (hn : ∀ f ∈ fs, n ≠ f.name) :
    (s.upsertFields fs).field? n = s.field? n := by
  induction fs generalizing s with
  | nil => rfl
  | cons f fs ih =>
      rw [List.forall_mem_cons] at hn
      exact (ih (s := s.upsertField f) hn.2).trans ((field?_upsertField ..).trans (if_neg hn.1))

variable {s} in
theorem field?_upsertFields_none {fs : List FieldSchema} {n : String}
    (h : (s.upsertFields fs).field? n = none) : s.field? n = none ∧ ∀ f ∈ fs, n ≠ f.name := by
  induction fs generalizing s with
  | nil => exact ⟨h, fun _ => nofun⟩
  | cons f fs ih =>
      obtain ⟨hn, hfs⟩ := ih (s := s.upsertField f) h
      rw [field?_upsertField] at hn
      split at hn
      · cases hn
      · next hne => exact ⟨hn, List.forall_mem_cons.mpr ⟨hne, hfs⟩⟩

variable {s} in
theorem find?_defaults_upsertFields {fs : List FieldSchema} {n : String}
    (hn : ∀ f ∈ fs, n ≠ f.name) :
    (s.upsertFields fs).defaults.find? n = s.defaults.find? n := by
  induction fs generalizing s with
  | nil => rfl
  | cons f fs ih =>
      rw [List.forall_mem_cons] at hn
      exact (ih (s := s.upsertField f) hn.2).trans (find?_defaults_upsertField s f hn.1)

end ComponentSchema

namespace ComponentStore

variable (s : ComponentStore) (component : String)

def initially (field : String) (v : Option Value) : Option Value :=
  (v.map (s.coerce component field)).or
    ((s.schema? component).bind fun schema => schema.defaults.find? field)

theorem find?_newRecord (init : List (String × Value)) (n : String) :
    Table.find? (s.newRecord component init) n =
      s.initially component n (Table.find? (Table.ofList init) n) := by
  unfold newRecord initially coerce
  cases s.schema? component with
  | none => simp
  | some schema => exact schema.find?_instantiate init n

/-- A field that is not declared takes anything, and is missing without an initial value. -/
theorem initially_of_none {n : String} (hn : (s.schema? component).bind (·.field? n) = none)
    (v : Option Value) : s.initially component n v = v := by
  unfold initially coerce
  cases hs : s.schema? component with
  | none => simp
  | some schema =>
      rw [hs, Option.bind_some] at hn
      have hcoerce : schema.coerce n = id := by
        unfold ComponentSchema.coerce
        rw [hn]
        rfl
      simp [schema.find?_defaults_of_none hn, hcoerce]

end ComponentStore

namespace World

theorem find?_alignField (f : FieldSchema) (r : Record) (n : String) :
    Table.find? (alignField f r) n = if n = f.name then
      some ((Table.find? r f.name).elim f.default f.type.coerce) else Table.find? r n := by
  unfold alignField
  cases Table.find? r f.name with
  | none => exact Table.find?_insert ..
  | some v => exact Table.find?_insert ..

def align (fs : List FieldSchema) (r : Record) : Record := fs.foldl (fun r f => alignField f r) r

/-- A value goes through the types of the fields of its name. -/
theorem find?_align {fs : List FieldSchema} {r : Record} {n : String} {v : Value}
    (h : Table.find? r n = some v) : Table.find? (align fs r) n =
      some (((fs.filter (·.name = n)).map (·.type)).foldl (fun v t => t.coerce v) v) := by
  induction fs generalizing r v with
  | nil => exact h
  | cons f fs ih =>
      have hf := find?_alignField f r n
      rw [List.filter_cons]
      by_cases hn : f.name = n
      · rw [hn, if_pos rfl, h] at hf
        rw [if_pos (decide_eq_true hn)]
        exact ih hf
      · rw [if_neg (Ne.symm hn), h] at hf
        rw [if_neg (by simpa using hn)]
        exact ih hf

theorem find?_align_of_ne {fs : List FieldSchema} {n : String} (hn : ∀ f ∈ fs, n ≠ f.name)
    (r : Record) : Table.find? (align fs r) n = Table.find? r n := by
  induction fs generalizing r with
  | nil => rfl
  | cons f fs ih =>
      rw [List.forall_mem_cons] at hn
      exact (ih hn.2 (alignField f r)).trans ((find?_alignField ..).trans (if_neg hn.1))

/-- Each schema is registered under its own name. -/
def Titled (w : World) : Prop :=
  ∀ component schema, w.schema? component = some schema → schema.name = component

variable {w w' w'' : World} (component k : String)

theorem schema?_register (schema : ComponentSchema) : (w.register schema).schema? k =
    if k = schema.name then some schema else w.schema? k := Table.find?_insert ..

theorem Titled.register (h : Titled w) (schema : ComponentSchema) : Titled (w.register schema) := by
  intro c t ht
  rw [schema?_register] at ht
  split at ht
  · next hc => rw [← Option.some.inj ht, hc]
  · exact h c t ht

theorem mergeField_components (f : FieldSchema) :
    (w.mergeField component f).components.schemas =
        (w.register (((w.schema? component).getD ⟨component, []⟩).upsertField f)).components.schemas ∧
      (∀ k, (w.mergeField component f).components.instances k = if k = component then
        (w.components.instances component).map fun p => (p.1, alignField f p.2)
        else w.components.instances k) := by
  obtain ⟨schema, rfl, ⟨hnone, h⟩ | h⟩ := w.mergeField_cases component f
  · rw [h]
    refine ⟨rfl, fun k => ?_⟩
    by_cases hk : k = component
    · rw [if_pos hk, hk, hnone]
      exact hnone
    · rw [if_neg hk]
      rfl
  · rw [h]
    refine ⟨?_, fun k => ?_⟩
    · unfold ComponentStore.mapInstances
      split
      · rfl
      · rfl
    · exact ComponentStore.instances_mapInstances ..

theorem Titled.title (h : Titled w) :
    ((w.schema? component).getD ⟨component, []⟩).name = component := by
  cases hs : w.schema? component with
  | none => rfl
  | some schema => exact h component schema hs

theorem Titled.schema?_mergeField (h : Titled w) (f : FieldSchema) :
    (w.mergeField component f).schema? k = if k = component then
      some (((w.schema? component).getD ⟨component, []⟩).upsertField f) else w.schema? k := by
  have hregister := schema?_register (w := w) k
    (((w.schema? component).getD ⟨component, []⟩).upsertField f)
  rw [World.schema?, ComponentStore.schema?, (w.mergeField_components component f).1]
  refine hregister.trans ?_
  rw [ComponentSchema.upsertField, h.title component]

theorem Titled.mergeField (h : Titled w) (f : FieldSchema) : Titled (w.mergeField component f) := by
  intro c t ht
  rw [h.schema?_mergeField] at ht
  split at ht
  · next hc =>
      rw [← Option.some.inj ht, hc]
      exact h.title component
  · exact h c t ht

theorem Reachable.titled (hr : Reachable w) : Titled w := by
  induction hr with
  | empty => exact fun _ _ => nofun
  | @request w r _ ih =>
      have hkeep {r : Request} (hr : r.Plain) (c : String) :
          (w.perform r).schema? c = w.schema? c :=
        congrArg (Table.find? · c) (w.perform_keeps hr).schemas
      cases r with
      | register schema => exact ih.register schema
      | mergeField component f => exact ih.mergeField component f
      | clear => exact fun _ _ => nofun
      | _ =>
          refine fun c t ht => ih c t ((hkeep ?_ c).symm.trans ht)
          trivial

def mergeFields (w : World) (component : String) (fs : List FieldSchema) : World :=
  fs.foldl (fun w f => w.mergeField component f) w

theorem Titled.mergeFields (h : Titled w) (fs : List FieldSchema) :
    Titled (w.mergeFields component fs) := by
  induction fs generalizing w with
  | nil => exact h
  | cons f fs ih => exact ih (h.mergeField component f)

variable {component k} in
theorem schema?_mergeFields_of_ne (h : Titled w) (hk : k ≠ component) (fs : List FieldSchema) :
    (w.mergeFields component fs).schema? k = w.schema? k := by
  induction fs generalizing w with
  | nil => rfl
  | cons f fs ih =>
      exact (ih (h.mergeField component f)).trans ((h.schema?_mergeField ..).trans (if_neg hk))

theorem schema?_mergeFields (h : Titled w) {schema : ComponentSchema}
    (hs : w.schema? component = some schema) (fs : List FieldSchema) :
    (w.mergeFields component fs).schema? component = some (schema.upsertFields fs) := by
  induction fs generalizing w schema with
  | nil => exact hs
  | cons f fs ih =>
      apply ih (h.mergeField component f)
      rw [h.schema?_mergeField, if_pos rfl, hs, Option.getD_some]

theorem instances_mergeFields (w : World) (fs : List FieldSchema) :
    (w.mergeFields component fs).components.instances k = if k = component then
      (w.components.instances component).map fun p => (p.1, align fs p.2)
      else w.components.instances k := by
  induction fs generalizing w with
  | nil =>
      change w.components.instances k = if k = component then List.map id _ else _
      rw [List.map_id]
      split
      · next hk => rw [hk]
      · rfl
  | cons f fs ih =>
      have hf := (w.mergeField_components component f).2
      refine (ih (w.mergeField component f)).trans ?_
      rw [hf, hf, if_pos rfl, List.map_map]
      split
      · rfl
      · rfl

/-- The same entities with the same components, functions and names. -/
structure SamePlaces (w w' : World) : Prop where
  entities : w'.entities = w.entities
  components : ∀ id, w'.componentsOf id = w.componentsOf id
  bound : w'.bound = w.bound
  names : w'.names = w.names

theorem SamePlaces.refl (w : World) : SamePlaces w w := ⟨rfl, fun _ => rfl, rfl, rfl⟩

theorem SamePlaces.trans (h : SamePlaces w w') (h' : SamePlaces w' w'') : SamePlaces w w'' :=
  ⟨h'.entities.trans h.entities, fun id => (h'.components id).trans (h.components id),
    h'.bound.trans h.bound, h'.names.trans h.names⟩

theorem samePlaces_mergeField (f : FieldSchema) : SamePlaces w (w.mergeField component f) := by
  obtain ⟨schema, -, ⟨-, h⟩ | h⟩ := w.mergeField_cases component f
  · rw [h]
    exact ⟨rfl, fun _ => rfl, rfl, rfl⟩
  · rw [h]
    exact ⟨rfl, fun id => ComponentStore.components_mapInstances .., rfl, rfl⟩

theorem samePlaces_mergeFields (fs : List FieldSchema) :
    SamePlaces w (w.mergeFields component fs) := by
  induction fs generalizing w with
  | nil => exact .refl w
  | cons f fs ih => exact (samePlaces_mergeField component f).trans ih

end World

end RuleSim
