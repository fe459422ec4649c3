import RuleSim.Proofs.World.Schemas

namespace RuleSim

namespace FieldType

theorem coerce_entity_of_some {v : Value} {e : EntityId} (h : v.asEntity? = some e) :
    entity.coerce v = .entity e := by
  cases v with
  | entity e' => exact congrArg Value.entity (Option.some.inj h)
  | int | float => simp [coerce, h]
  | _ => cases h

theorem coerce_entity_of_none {v : Value} (h : v.asEntity? = none) : entity.coerce v = v := by
  cases v with
  | int | float => simp [coerce, h]
  | _ => rfl

/-- A coerced value is coerced to itself. -/
theorem coerce_coerce (t : FieldType) (v : Value) : t.coerce (t.coerce v) = t.coerce v := by
  cases t with
  | integer =>
      cases v with
      | float x => by_cases hx : x.isFinite = true <;> simp [coerce, hx]
      | _ => rfl
  | entity =>
      cases hv : v.asEntity? with
      | none => rw [coerce_entity_of_none hv, coerce_entity_of_none hv]
      | some e =>
          rw [coerce_entity_of_some hv]
          rfl
  | _ => rfl

theorem coerce_zeroValue (t : FieldType) : t.coerce t.zeroValue = t.zeroValue := by
  cases t <;> rfl

/-- A whole-number field holds a binary number only if it is infinite or not a number. -/
theorem not_finite_of_coerce {x : Binary64} (h : integer.coerce (.float x) = .float x) :
    x.isFinite = false := by
  by_contra hx
  simp [coerce, hx] at h

/-- An entity field holds no number that could be read as a reference. -/
theorem asEntity?_of_coerce {v : Value} (h : entity.coerce v = v) :
    v.asEntity? = none ∨ ∃ e, v = .entity e := by
  cases hv : v.asEntity? with
  | none => exact .inl rfl
  | some e => exact .inr ⟨e, h.symm.trans (coerce_entity_of_some hv)⟩

end FieldType

def FieldSchema.Made (f : FieldSchema) : Prop :=
  ∃ name type default, f = FieldSchema.make name type default

theorem FieldSchema.Made.coerce_default {f : FieldSchema} (h : f.Made) :
    f.type.coerce f.default = f.default := by
  obtain ⟨name, type, default, rfl⟩ := h
  cases default with
  | none => exact type.coerce_zeroValue
  | some v => exact type.coerce_coerce v

namespace ComponentSchema

structure Regular (s : ComponentSchema) : Prop where
  names : (s.fields.map (·.name)).Nodup
  made : ∀ f ∈ s.fields, f.Made

def Describes (s : ComponentSchema) (r : Record) : Prop :=
  ∀ n f v, s.field? n = some f → Table.find? r n = some v → f.type.coerce v = v

variable {s : ComponentSchema} {n : String} {f : FieldSchema}

theorem mem_of_field? (h : s.field? n = some f) : f ∈ s.fields := List.mem_of_find?_eq_some h

/-- With distinct names the default of a field is the one that its first declaration gives. -/
theorem Regular.find?_defaults (h : s.Regular) (n : String) :
    s.defaults.find? n = (s.field? n).map (·.default) := by
  have hkeys : Table.keys (s.fields.map fun f => (f.name, f.default)) = s.fields.map (·.name) :=
    List.map_map
  unfold defaults
  rw [Table.find?_ofList (hkeys ▸ h.names)]
  unfold field?
  induction s.fields with
  | nil => rfl
  | cons g gs ih =>
      rw [List.map_cons, Table.find?, List.find?_cons, ih]
      by_cases hg : g.name = n
      · simp [hg]
      · simp [hg, Ne.symm hg]

theorem map_name_upsert (gs : List FieldSchema) (f : FieldSchema) :
    (upsert gs f).map (·.name) = if f.name ∈ gs.map (·.name) then gs.map (·.name)
      else gs.map (·.name) ++ [f.name] := by
  induction gs with
  | nil => simp [upsert]
  | cons g gs ih =>
      rw [upsert]
      by_cases hg : g.name = f.name
      · simp [hg]
      · rw [if_neg hg, List.map_cons, ih]
        by_cases hgs : f.name ∈ gs.map (·.name) <;> simp [hgs, Ne.symm hg]

theorem mem_upsert {gs : List FieldSchema} {g : FieldSchema} (h : g ∈ upsert gs f) :
    g = f ∨ g ∈ gs := by
  induction gs with
  | nil => exact .inl (List.mem_singleton.mp h)
  | cons g' gs ih =>
      rw [upsert] at h
      split at h
      · exact (List.mem_cons.mp h).imp_right (List.mem_cons_of_mem _)
      · rcases List.mem_cons.mp h with rfl | h
        · exact .inr List.mem_cons_self
        · exact (ih h).imp_right (List.mem_cons_of_mem _)

theorem Regular.upsertField (h : s.Regular) (hf : f.Made) : (s.upsertField f).Regular where
  names := by
    change ((upsert s.fields f).map (·.name)).Nodup
    rw [map_name_upsert]
    split
    · exact h.names
    · next hnew => exact List.nodup_append.mpr ⟨h.names, List.nodup_singleton _, by simpa using hnew⟩
  made g hg := by
    rcases mem_upsert hg with rfl | hg
    · exact hf
    · exact h.made g hg

theorem regular_nil (name : String) : Regular ⟨name, []⟩ := ⟨List.nodup_nil, by simp⟩

end ComponentSchema

namespace ComponentStore

def Fits (s : ComponentStore) (component : String) (r : Record) : Prop :=
  ∀ schema, s.schema? component = some schema → schema.Describes r

structure Typed (s : ComponentStore) : Prop where
  regular : ∀ component schema, s.schema? component = some schema → schema.Regular
  records : ∀ entity component r, s.get? entity component = some r → s.Fits component r

variable {s t : ComponentStore} {entity : EntityId} {component : String}

/-- Under the same schemas only new records have to fit. -/
theorem Typed.of_records (h : Typed s) (hs : t.schemas = s.schemas)
    (hr : ∀ e c r, t.get? e c = some r → s.get? e c = some r ∨ s.Fits c r) : Typed t := by
  have hschema (c : String) : t.schema? c = s.schema? c := congrArg (Table.find? · c) hs
  refine ⟨fun c schema hc => h.regular c schema (hschema c ▸ hc), fun e c r hget schema hc => ?_⟩
  rw [hschema] at hc
  rcases hr e c r hget with hr | hr
  · exact h.records e c r hr schema hc
  · exact hr schema hc

theorem coerce_of_field? {schema : ComponentSchema} {n : String} {f : FieldSchema}
    (hs : s.schema? component = some schema) (hf : schema.field? n = some f) :
    s.coerce component n = f.type.coerce := by
  funext v
  simp only [coerce, hs, ComponentSchema.coerce, hf]

theorem Typed.fits_newRecord (h : Typed s) (component : String) (init : List (String × Value)) :
    s.Fits component (s.newRecord component init) := by
  intro schema hs n f v hf hv
  rw [find?_newRecord, initially, coerce_of_field? hs hf, hs, Option.bind_some,
    (h.regular component schema hs).find?_defaults, hf, Option.map_some] at hv
  cases hinit : Table.find? (Table.ofList init) n with
  | none =>
      rw [hinit] at hv
      obtain rfl := Option.some.inj hv
      have hmade := (h.regular component schema hs).made f (ComponentSchema.mem_of_field? hf)
      exact hmade.coerce_default
  | some x =>
      rw [hinit] at hv
      obtain rfl := Option.some.inj hv
      exact f.type.coerce_coerce x

theorem Typed.insert (h : Typed s) {r : Record} (hr : s.Fits component r) :
    Typed (s.insert entity component r) := by
  refine h.of_records rfl fun e c r' hget => ?_
  rw [get?_insert] at hget
  split_ifs at hget with hec
  · rw [← Option.some.inj hget, hec.2]
    exact .inr hr
  · exact .inl hget

theorem Typed.attach (h : Typed s) (init : List (String × Value)) :
    Typed (s.attach entity component init) := h.insert (h.fits_newRecord component init)

theorem Typed.remove (h : Typed s) : Typed (s.remove entity component) :=
  h.of_records (World.remove_schemas ..) fun _ _ _ hget => .inl (get?_of_remove _ _ _ _ _ hget)

theorem Typed.removeEntity (h : Typed s) : Typed (s.removeEntity entity) :=
  h.of_records rfl fun _ _ _ hget => .inl (get?_of_removeEntity _ _ _ _ hget)

theorem Typed.removeEntities (h : Typed s) (ids : List EntityId) :
    Typed (ids.foldl ComponentStore.removeEntity s) := by
  induction ids generalizing s with
  | nil => exact h
  | cons id ids ih => exact ih h.removeEntity

theorem Typed.ensure (h : Typed s) : Typed (s.ensure entity component) := by
  unfold ComponentStore.ensure
  split
  · exact h
  · exact h.attach []

theorem Typed.write (h : Typed s) (field : String) (v : Value) :
    Typed (s.write entity component field (s.coerce component field v)) := by
  refine h.of_records rfl fun e c r hget => ?_
  rw [get?_write] at hget
  split_ifs at hget with hec
  · obtain rfl := Option.some.inj hget
    obtain rfl := hec.2
    refine .inr fun schema hs n f x hf hx => ?_
    rw [Table.find?_insert] at hx
    split_ifs at hx with hn
    · obtain rfl := Option.some.inj hx
      subst hn
      rw [coerce_of_field? hs hf]
      exact f.type.coerce_coerce v
    · cases hr : s.get? entity c with
      | none =>
          rw [hr] at hx
          cases hx
      | some r =>
          rw [hr] at hx
          exact h.records entity c r hr schema hs n f x hf hx
  · exact .inl hget

end ComponentStore

namespace World

/-- Values of declared fields are of the declared types, and so are the defaults. -/
def Typed (w : World) : Prop := w.components.Typed

variable {w w' : World}

theorem Typed.coerce_eq (h : Typed w) {id : EntityId} {component field : String} {f : FieldSchema}
    {v : Value} (hf : w.fieldSchema? component field = some f)
    (hv : w.field? id component field = some v) : f.type.coerce v = v := by
  obtain ⟨schema, hs, hf⟩ := Option.bind_eq_some_iff.mp hf
  obtain ⟨r, hr, hv⟩ := Option.bind_eq_some_iff.mp hv
  exact h.records id component r hr schema hs field f v hf hv

theorem fits_recordsOf (h : Typed w) {source : EntityId} {p : String × Record}
    (hp : p ∈ w.recordsOf source) : w.components.Fits p.1 p.2 := by
  obtain ⟨c, -, hc⟩ := List.mem_filterMap.mp hp
  obtain ⟨r, hr, rfl⟩ := Option.map_eq_some_iff.mp hc
  exact h.records source c r hr

theorem typed_insertRecords {s : ComponentStore} (h : s.Typed) (id : EntityId)
    {records : List (String × Record)} (hr : ∀ p ∈ records, s.Fits p.1 p.2) :
    (insertRecords s id records).Typed := by
  unfold insertRecords
  induction records generalizing s with
  | nil => exact h
  | cons p records ih =>
      rw [List.forall_mem_cons] at hr
      exact ih (h.insert hr.1) hr.2

theorem Effect.typed (he : Effect w w') (h : Typed w) : Typed w' := by
  cases he with
  | keep | name | bind => exact h
  | enter he =>
      cases he with
      | fresh | chosen => exact h
  | delete id => exact h.removeEntity
  | attach id component init => exact h.attach init
  | remove id component => exact h.remove
  | write id component field v =>
      have hensure : (w.components.ensure id component).Typed := h.ensure
      have hcoerce : (w.components.ensure id component).coerce component field v =
          w.components.coerce component field v := by
        rw [ComponentStore.coerce, ComponentStore.schema?, ensure_schemas]
        rfl
      exact hcoerce ▸ hensure.write field v
  | @clone source id w' he =>
      cases he with
      | fresh | chosen => exact typed_insertRecords h _ fun _ hp => fits_recordsOf h hp
  | clearEntities => exact h.removeEntities w.entityIds

theorem Typed.register (h : Typed w) (hs : Sound w) {schema : ComponentSchema}
    (hr : schema.Regular) (hfree : ∀ id, w.hasComponent id schema.name = false) :
    Typed (w.register schema) where
  regular c t ht := by
    rw [← World.schema?, schema?_register] at ht
    split_ifs at ht
    · exact Option.some.inj ht ▸ hr
    · exact h.regular c t ht
  records id c r hget t ht := by
    rw [← World.schema?, schema?_register] at ht
    split_ifs at ht with hc
    · have hhas : w.components.has id c = true := Option.isSome_iff_exists.mpr ⟨r, hget⟩
      have hlive : w.hasEntity id = true := decide_eq_true (hs.records id c hhas)
      have hnone := hfree id
      rw [hasComponent, hlive, ← hc, hhas] at hnone
      cases hnone
    · exact h.records id c r hget t ht

theorem Typed.mergeField (h : Typed w) (ht : Titled w) (component : String) {f : FieldSchema}
    (hf : f.Made) : Typed (w.mergeField component f) where
  regular c t hc := by
    rw [← World.schema?, ht.schema?_mergeField] at hc
    split_ifs at hc
    · rw [← Option.some.inj hc]
      cases hs : w.schema? component with
      | none => exact (ComponentSchema.regular_nil component).upsertField hf
      | some schema => exact (h.regular component schema hs).upsertField hf
    · exact h.regular c t hc
  records id c r hget t hc n g v hg hv := by
    rw [← World.schema?, ht.schema?_mergeField] at hc
    rw [ComponentStore.get?, (w.mergeField_components component f).2] at hget
    split_ifs at hc hget
    · subst c
      obtain rfl := Option.some.inj hc
      rw [Table.find?_map, Option.map_eq_some_iff] at hget
      obtain ⟨r, hr, rfl⟩ := hget
      rw [ComponentSchema.field?_upsertField] at hg
      rw [find?_alignField] at hv
      split_ifs at hg hv
      · obtain rfl := Option.some.inj hg
        obtain rfl := Option.some.inj hv
        cases Table.find? r f.name with
        | none => exact hf.coerce_default
        | some x => exact f.type.coerce_coerce x
      · cases hs : w.schema? component with
        | none =>
            rw [hs] at hg
            cases hg
        | some schema =>
            rw [hs] at hg
            exact h.records id component r hr schema hs n g v hg hv
    · exact h.records id c r hget t hc n g v hg hv

/-- Fields are made for their types, and a schema is registered with each field once and while no
live entity has the component. All else may be asked at any time. -/
def Request.Fitting (w : World) : Request → Prop
  | .register schema => schema.Regular ∧ ∀ id, w.hasComponent id schema.name = false
  | .mergeField _ f => f.Made
  | _ => True

inductive Orderly : World → Prop
  | empty : Orderly empty
  | request {w : World} (r : Request) (hw : Orderly w) (hr : r.Fitting w) : Orderly (w.perform r)

theorem Orderly.reachable (h : Orderly w) : Reachable w := by
  induction h with
  | empty => exact .empty
  | request r _ _ ih => exact .request r ih

theorem Orderly.typed (h : Orderly w) : Typed w := by
  induction h with
  | empty => exact ⟨fun _ _ => nofun, fun _ _ _ => nofun⟩
  | @request w r hw hr ih =>
      cases r with
      | register schema => exact ih.register hw.reachable.sound hr.1 hr.2
      | mergeField component f => exact ih.mergeField hw.reachable.titled component hr
      | clear => exact ⟨fun _ _ => nofun, fun _ _ _ => nofun⟩
      | _ => exact Effect.typed (w.perform_effect trivial) ih

/-- However a value got into a declared field, it is one that the type of the field leaves alone: a
whole-number field holds no finite binary number, and an entity field no entity number. -/
theorem stored_coerced (h : Orderly w) {id : EntityId} {component field : String} {f : FieldSchema}
    {v : Value} (hf : w.fieldSchema? component field = some f)
    (hv : w.field? id component field = some v) :
    f.type.coerce v = v ∧
      (f.type = .integer → ∀ x, v = .float x → x.isFinite = false) ∧
      (f.type = .entity → (∀ n, v = .int n → n.toInt < 0) ∧
        ∀ x, v = .float x → ¬(Binary64.zero.numLe x = true ∧ x.isWhole = true)) := by
  have hfix := h.typed.coerce_eq hf hv
  refine ⟨hfix, fun ht x hx => ?_, fun ht => ?_⟩
  · subst hx
    rw [ht] at hfix
    exact FieldType.not_finite_of_coerce hfix
  · rw [ht] at hfix
    have hnone := FieldType.asEntity?_of_coerce hfix
    refine ⟨fun n hn => ?_, fun x hx => ?_⟩
    · subst hn
      simpa [Value.asEntity?] using hnone
    · subst hx
      simpa [Value.asEntity?, Value.entityOfFloat?] using hnone

def garrison : World :=
  ((empty.perform (.register ⟨"Guard", [.make "post" .entity none]⟩)).perform .create).perform
    (.addComponent (.ofNat 0) "Guard" [("post", .int 7)])

theorem garrison_orderly : Orderly garrison := by
  have hmade : ∀ f ∈ [FieldSchema.make "post" .entity none], f.Made := by
    intro f hf
    exact ⟨_, _, _, List.mem_singleton.mp hf⟩
  refine .request _ (.request _ (.request _ .empty ⟨⟨by decide, hmade⟩, fun _ => rfl⟩) ?_) ?_
  · trivial
  · trivial

theorem garrison_stored_coerced :
    garrison.fieldSchema? "Guard" "post" = some (.make "post" .entity none) ∧
      garrison.field? (.ofNat 0) "Guard" "post" = some (.entity (.ofNat 7)) ∧
      FieldType.entity.coerce (.entity (.ofNat 7)) = .entity (.ofNat 7) := by
  have hschema : garrison.fieldSchema? "Guard" "post" = some (.make "post" .entity none) := rfl
  have hfield : garrison.field? (.ofNat 0) "Guard" "post" = some (.entity (.ofNat 7)) := rfl
  exact ⟨hschema, hfield, (stored_coerced garrison_orderly hschema hfield).1⟩

end World

end RuleSim
