import RuleSim.Proofs.Respects
import RuleSim.Proofs.World.Sound

namespace RuleSim

namespace ComponentStore

structure Alike (s t : ComponentStore) : Prop where
  schemas : t.schemas = s.schemas
  instances : ∀ component, t.instances component = s.instances component
  components : ∀ entity, t.components entity = s.components entity

variable {s t : ComponentStore} (entity : EntityId) (component field : String)

namespace Alike

theorem schema? (h : Alike s t) : t.schema? component = s.schema? component := by
  rw [ComponentStore.schema?, ComponentStore.schema?, h.schemas]

theorem get? (h : Alike s t) : t.get? entity component = s.get? entity component := by
  rw [ComponentStore.get?, ComponentStore.get?, h.instances]

theorem has (h : Alike s t) : t.has entity component = s.has entity component := by
  rw [ComponentStore.has, ComponentStore.has, h.get?]

theorem getField? (h : Alike s t) :
    t.getField? entity component field = s.getField? entity component field := by
  rw [ComponentStore.getField?, ComponentStore.getField?, h.get?]

theorem withAll (h : Alike s t) (components : List String) :
    t.withAll components = s.withAll components := by
  have hinstances : t.instances = s.instances := funext h.instances
  rw [ComponentStore.withAll, ComponentStore.withAll, hinstances]

theorem insert (h : Alike s t) (record : Record) :
    Alike (s.insert entity component record) (t.insert entity component record) where
  schemas := h.schemas
  instances c := by simp only [instances_insert, h.instances]
  components e := by simp only [components_insert, h.components]

theorem attach (h : Alike s t) (init : List (String × Value)) :
    Alike (s.attach entity component init) (t.attach entity component init) := by
  have hrecord : t.newRecord component init = s.newRecord component init := by
    rw [newRecord, newRecord, h.schema?]
  rw [ComponentStore.attach, ComponentStore.attach, hrecord]
  exact h.insert entity component _

theorem remove (h : Alike s t) : Alike (s.remove entity component) (t.remove entity component) := by
  by_cases hs : s.has entity component = true
  · have ht : t.has entity component = true := (h.has entity component).trans hs
    refine ⟨?_, fun c => ?_, fun e => ?_⟩
    · rw [ComponentStore.remove, ComponentStore.remove, if_pos hs, if_pos ht]
      exact h.schemas
    · simp only [instances_remove _ _ _ _ hs, instances_remove _ _ _ _ ht, h.instances]
    · simp only [components_remove _ _ _ _ hs, components_remove _ _ _ _ ht, h.components]
  · have ht : ¬ t.has entity component = true := by rwa [h.has]
    rwa [ComponentStore.remove, ComponentStore.remove, if_neg hs, if_neg ht]

theorem removeEntity (h : Alike s t) : Alike (s.removeEntity entity) (t.removeEntity entity) where
  schemas := h.schemas
  instances c := by simp only [instances_removeEntity, h.components, h.instances]
  components e := by simp only [components_removeEntity, h.components]

theorem ensure (h : Alike s t) : Alike (s.ensure entity component) (t.ensure entity component) := by
  unfold ComponentStore.ensure
  rw [h.has]
  split
  · exact h
  · exact h.attach entity component []

theorem write (h : Alike s t) (v : Value) :
    Alike (s.write entity component field v) (t.write entity component field v) where
  schemas := h.schemas
  instances c := by simp only [instances_write, h.get?, h.instances]
  components := h.components

/-- Both fields hold the value already, or both are written. -/
theorem setField? (h : Alike s t) (v : Value) :
    (s.setField? entity component field v = none ∧ t.setField? entity component field v = none) ∨
      ∃ s' t', s.setField? entity component field v = some s' ∧
        t.setField? entity component field v = some t' ∧ Alike s' t' := by
  have hcoerce : t.coerce component field v = s.coerce component field v := by
    rw [coerce, coerce, h.schema?]
  have ht := t.setField?_cases entity component field v
  rw [h.getField?, hcoerce] at ht
  rcases s.setField?_cases entity component field v with ⟨hv, hs⟩ | ⟨hv, hs⟩
  · rcases ht with ⟨-, ht⟩ | ⟨hne, -⟩
    · exact .inl ⟨hs, ht⟩
    · exact absurd hv hne
  · rcases ht with ⟨heq, -⟩ | ⟨-, ht⟩
    · exact absurd heq hv
    · exact .inr ⟨_, _, hs, ht, (h.ensure entity component).write entity component field _⟩

theorem insertRecords (h : Alike s t) (records : List (String × Record)) :
    Alike (World.insertRecords s entity records) (World.insertRecords t entity records) := by
  unfold World.insertRecords
  induction records generalizing s t with
  | nil => exact h
  | cons p records ih => exact ih (h.insert entity p.1 p.2)

end Alike

end ComponentStore

namespace World

/-- No reader tells the worlds apart. The tables behind them may differ, since a component that lost
its last instance keeps an empty one, and so may their revisions, by a fixed number. -/
structure Alike (k : UInt64) (w v : World) : Prop where
  entities : v.entities = w.entities
  components : w.components.Alike v.components
  bound : v.bound = w.bound
  names : v.names = w.names
  revision : v.revision = w.revision + k

variable {k : UInt64} {w v : World} (id : EntityId) (component field : String)

theorem Alike.refl (w : World) : Alike 0 w w :=
  ⟨rfl, ⟨rfl, fun _ => rfl, fun _ => rfl⟩, rfl, rfl, (UInt64.add_zero _).symm⟩

/-- A write to one entity is refused in both worlds or in none. -/
theorem guarded_match {α : Type} {R : α → α → Prop} {f g : Except Error α}
    (h : v.entities = w.entities) (hf : Match R f g) :
    Match R (do w.validate id; f) (do v.validate id; g) := by
  rw [validate_eq, validate_eq, h]
  split
  · exact hf
  · exact .error _

namespace Alike

theorem fieldSchema? (h : Alike k w v) :
    v.fieldSchema? component field = w.fieldSchema? component field := by
  unfold World.fieldSchema? World.schema?
  rw [h.components.schema?]

theorem hasEntity (h : Alike k w v) : v.hasEntity id = w.hasEntity id := by
  rw [World.hasEntity, World.hasEntity, h.entities]

theorem validate (h : Alike k w v) : v.validate id = w.validate id := by
  rw [World.validate, World.validate, h.entities]

theorem hasComponent (h : Alike k w v) :
    v.hasComponent id component = w.hasComponent id component := by
  rw [World.hasComponent, World.hasComponent, h.hasEntity, h.components.has]

theorem field? (h : Alike k w v) : v.field? id component field = w.field? id component field :=
  h.components.getField? id component field

theorem recordsOf (h : Alike k w v) : v.recordsOf id = w.recordsOf id := by
  unfold World.recordsOf componentsOf component?
  simp only [h.components.components, h.components.get?]

theorem query (h : Alike k w v) (components : List String) :
    v.query components = w.query components := by
  rw [World.query, World.query, entityIds, entityIds, h.entities, h.components.withAll]

theorem functionsOf (h : Alike k w v) : v.functionsOf id = w.functionsOf id := by
  rw [World.functionsOf, World.functionsOf, h.bound]

theorem entityByName? (h : Alike k w v) (name : String) :
    v.entityByName? name = w.entityByName? name := by
  have hlive : v.hasEntity = w.hasEntity := funext h.hasEntity
  rw [World.entityByName?, World.entityByName?, h.names, hlive]

theorem resolveBound (h : Alike k w v) (name : String) :
    v.resolveBound id name = w.resolveBound id name := by
  rw [World.resolveBound, World.resolveBound, h.validate, boundFunction?, boundFunction?,
    h.functionsOf]

/-- A host that copies the worlds gets the same. -/
theorem snapshot (h : Alike k w v) (time : Binary64) : v.snapshot time = w.snapshot time := by
  unfold World.snapshot snapshotEntity nameOf? boundFunctionNames entityIds
  simp only [h.entities, h.names, h.recordsOf, h.functionsOf]

theorem touch (h : Alike k w v) : Alike k w.touch v.touch := by
  refine ⟨h.entities, h.components, h.bound, h.names, ?_⟩
  rw [World.touch, World.touch, h.revision]
  ac_rfl

theorem create (h : Alike k w v) : v.create.1 = w.create.1 ∧ Alike k w.create.2 v.create.2 := by
  unfold World.create
  rw [h.entities]
  exact ⟨rfl, touch ⟨rfl, h.components, h.bound, h.names, h.revision⟩⟩

theorem createWithId (h : Alike k w v) :
    Match (Alike k) (w.createWithId id) (v.createWithId id) := by
  unfold World.createWithId
  rw [h.entities]
  cases w.entities.insert id with
  | error e => exact .error e
  | ok s => exact .ok (touch ⟨rfl, h.components, h.bound, h.names, h.revision⟩)

theorem delete (h : Alike k w v) : Match (Alike k) (w.delete id) (v.delete id) := by
  unfold World.delete
  rw [h.entities]
  cases w.entities.destroy id with
  | error e => exact .error e
  | ok s =>
      refine .ok (touch ⟨rfl, h.components.removeEntity id, ?_, ?_, h.revision⟩)
      · rw [h.bound]
      · rw [h.names]

theorem setName (h : Alike k w v) (name : String) :
    Match (Alike k) (w.setName id name) (v.setName id name) := by
  refine guarded_match id h.entities (.ok (touch ⟨h.entities, h.components, h.bound, ?_, h.revision⟩))
  rw [h.names]

theorem addComponent (h : Alike k w v) (init : List (String × Value)) :
    Match (Alike k) (w.addComponent id component init) (v.addComponent id component init) :=
  guarded_match id h.entities
    (.ok (touch ⟨h.entities, h.components.attach id component init, h.bound, h.names, h.revision⟩))

theorem removeComponent (h : Alike k w v) :
    Match (fun p q => q.1 = p.1 ∧ Alike k p.2 q.2) (w.removeComponent id component)
      (v.removeComponent id component) := by
  refine guarded_match id h.entities ?_
  rw [h.components.has]
  split
  · exact .ok ⟨rfl,
      touch ⟨h.entities, h.components.remove id component, h.bound, h.names, h.revision⟩⟩
  · exact .ok ⟨rfl, h⟩

theorem setField (h : Alike k w v) (x : Value) :
    Match (Alike k) (w.setField id component field x) (v.setField id component field x) := by
  refine guarded_match id h.entities ?_
  rcases h.components.setField? id component field x with ⟨hs, ht⟩ | ⟨s, t, hs, ht, hst⟩
  · rw [hs, ht]
    exact .ok h
  · rw [hs, ht]
    exact .ok (touch ⟨h.entities, hst, h.bound, h.names, h.revision⟩)

theorem setBoundFunction (h : Alike k w v) (name : String) (f : BoundFunction) :
    Match (Alike k) (w.setBoundFunction id name f) (v.setBoundFunction id name f) := by
  refine guarded_match id h.entities (.ok (touch ⟨h.entities, h.components, ?_, h.names, h.revision⟩))
  rw [h.bound, h.functionsOf]

theorem clone (h : Alike k w v) (source : EntityId) :
    Match (fun p q => q.1 = p.1 ∧ Alike k p.2 q.2) (w.clone source none) (v.clone source none) := by
  obtain ⟨hid, hnew⟩ := h.create
  have hclone (w : World) : w.clone source none = do
      w.validate source
      return (w.create.1, { w.create.2 with
        components := insertRecords w.create.2.components w.create.1 (w.recordsOf source)
        bound := (w.bound.find? source).elim w.create.2.bound
          (w.create.2.bound.insert w.create.1) }) := by
    unfold World.clone
    cases w.bound.find? source <;> rfl
  rw [hclone, hclone, h.recordsOf, h.bound, hid, hnew.bound]
  exact guarded_match source h.entities (.ok ⟨rfl, hnew.entities, hnew.components.insertRecords _ _, rfl,
    hnew.names, hnew.revision⟩)

end Alike

structure Creating (T : World → World → Prop) : Prop where
  create {w v : World} (h : T w v) : v.create.1 = w.create.1 ∧ T w.create.2 v.create.2
  createWithId {w v : World} (h : T w v) (id : EntityId) :
    Match T (w.createWithId id) (v.createWithId id)
  setName {w v : World} (h : T w v) (id : EntityId) (name : String) :
    Match T (w.setName id name) (v.setName id name)
  addComponent {w v : World} (h : T w v) (id : EntityId) (component : String)
    (init : List (String × Value)) :
    Match T (w.addComponent id component init) (v.addComponent id component init)
  setBoundFunction {w v : World} (h : T w v) (id : EntityId) (name : String) (f : BoundFunction) :
    Match T (w.setBoundFunction id name f) (v.setBoundFunction id name f)

theorem match_sequential {T : World → World → Prop} :
    Sequential fun f => ∀ w v, T w v → Match T (f w) (f v) where
  done _ _ h := .ok h
  bind hf hg w v h := (hf w v h).bind hg

namespace Creating

variable {T : World → World → Prop} (hT : Creating T)
include hT

theorem furnish (h : T w v) (d : EntityDecl) : Match T (furnish d id w) (furnish d id v) :=
  match_sequential.furnish (fun name _ _ _ h => hT.setName h id name)
    (fun component init _ _ h => hT.addComponent h id component init)
    (fun name f _ _ h => hT.setBoundFunction h id name f) w v h

theorem withEntity (h : T w v) (d : EntityDecl) :
    Match (fun p q => q.1 = p.1 ∧ T p.2 q.2) (w.withEntity d) (v.withEntity d) := by
  rw [withEntity_eq, withEntity_eq]
  cases d.id with
  | none =>
      obtain ⟨hid, hnew⟩ := hT.create h
      dsimp only
      rw [hid]
      exact (hT.furnish _ hnew d).bind fun w v h => .ok ⟨rfl, h⟩
  | some n =>
      exact (hT.createWithId h _).bind fun w v h =>
        (hT.furnish _ h d).bind fun w v h => .ok ⟨rfl, h⟩

theorem spawn (d : EntityDecl) : Respects T (spawn d) := by
  intro w v h
  unfold World.spawn
  have hd := hT.withEntity h d
  generalize w.withEntity d = x, v.withEntity d = y at hd
  cases hd with
  | ok hp =>
    obtain ⟨hid, hnew⟩ := hp
    dsimp only
    rw [hid]
    exact .ok _ hnew
  | error e => exact .error e h

theorem spawnAll (ds : List EntityDecl) : Respects T (spawnAll ds) := by
  induction ds with
  | nil => exact respects_pure _
  | cons d ds ih => exact (hT.spawn d).bind fun id => ih.bind fun ids => respects_pure _

end Creating

theorem creating_alike (k : UInt64) : Creating (Alike k) where
  create h := h.create
  createWithId h id := h.createWithId id
  setName h id name := h.setName id name
  addComponent h id component init := h.addComponent id component init
  setBoundFunction h id name f := h.setBoundFunction id name f

theorem respects_spawnAll (ds : List EntityDecl) : Respects (Alike k) (spawnAll ds) :=
  (creating_alike k).spawnAll ds

structure Bare (w : World) : Prop where
  entities : w.entities = .empty
  instances : ∀ component, w.components.instances component = []
  components : ∀ id, w.components.components id = []
  bound : w.bound = []
  names : w.names = []

theorem Bare.alike (hw : Bare w) (hv : Bare v) (h : v.components.schemas = w.components.schemas) :
    Alike (v.revision - w.revision) w v where
  entities := hv.entities.trans hw.entities.symm
  components.schemas := h
  components.instances c := (hv.instances c).trans (hw.instances c).symm
  components.components id := (hv.components id).trans (hw.components id).symm
  bound := hv.bound.trans hw.bound.symm
  names := hv.names.trans hw.names.symm
  revision := by rw [UInt64.add_comm, UInt64.sub_add_cancel]

/-- The index leads to every record, so that no record stays. -/
theorem Sound.clearEntities_bare (hs : Sound w) : Bare w.clearEntities := by
  have hc := hs.clearEntities
  have hhas (id : EntityId) (component : String) :
      w.clearEntities.components.has id component = false :=
    Bool.eq_false_iff.mpr fun h => List.not_mem_nil (hc.records id component h)
  refine ⟨rfl, fun component => ?_, fun id => ?_, rfl, rfl⟩
  · refine Table.eq_nil_of_find? fun id => ?_
    have h := hhas id component
    rwa [ComponentStore.has, Option.isSome_eq_false_iff, Option.isNone_iff_eq_none] at h
  · rw [List.eq_nil_iff_forall_not_mem]
    intro component h
    have hrecord := (hc.indexed id component).mp h
    simp [hhas] at hrecord

end World

end RuleSim
