import Mathlib.Data.Finset.Card
import RuleSim.Proofs.World.Components
import RuleSim.Proofs.World.Spawning

namespace RuleSim

namespace EntityStore

theorem firstFree_not_mem {live : List EntityId} {n fuel : Nat}
    (h : ∃ k ≤ fuel, EntityId.ofNat (n + k) ∉ live) :
    EntityId.ofNat (firstFree live n fuel) ∉ live := by
  induction fuel generalizing n with
  | zero =>
      obtain ⟨k, hk, hfree⟩ := h
      obtain rfl := Nat.le_zero.mp hk
      exact hfree
  | succ fuel ih =>
      rw [firstFree]
      split
      · next hn =>
          refine ih ?_
          obtain ⟨k, hk, hfree⟩ := h
          cases k with
          | zero => exact absurd hn hfree
          | succ k => exact ⟨k, by omega, by rwa [Nat.add_right_comm, Nat.add_assoc]⟩
      · next hn => exact hn

/-- Of one more identifier than there are live entities one is free. -/
theorem spawn_fresh {s : EntityStore} (h : s.live.length < 2 ^ 64) : s.spawn.1 ∉ s.live := by
  refine firstFree_not_mem ?_
  by_contra hall
  push Not at hall
  let candidates := (Finset.range (s.live.length + 1)).image fun k => EntityId.ofNat (s.next + k)
  have hcard : candidates.card = s.live.length + 1 := by
    rw [Finset.card_image_of_injOn, Finset.card_range]
    intro j hj k hk hjk
    rw [Finset.coe_range, Set.mem_Iio] at hj hk
    have hmod := EntityId.ofNat_eq_iff.mp hjk
    omega
  have hsub : candidates ⊆ s.live.toFinset := by
    intro id hid
    obtain ⟨k, hk, rfl⟩ := Finset.mem_image.mp hid
    rw [List.mem_toFinset]
    exact hall k (Nat.lt_succ_iff.mp (Finset.mem_range.mp hk))
  have hle := (Finset.card_le_card hsub).trans s.live.toFinset_card_le
  omega

end EntityStore

namespace World

inductive Request where
  | create
  | createWithId (id : EntityId)
  | delete (id : EntityId)
  | setName (id : EntityId) (name : String)
  | addComponent (id : EntityId) (component : String) (init : List (String × Value))
  | removeComponent (id : EntityId) (component : String)
  | setField (id : EntityId) (component field : String) (v : Value)
  | mergeField (component : String) (f : FieldSchema)
  | register (schema : ComponentSchema)
  | clone (source : EntityId) (target : Option EntityId)
  | setBoundFunction (id : EntityId) (name : String) (f : BoundFunction)
  | clearEntities
  | clear

def orKeep (w : World) : Except Error World → World
  | .ok w => w
  | .error _ => w

def perform (w : World) : Request → World
  | .create => w.create.2
  | .createWithId id => w.orKeep (w.createWithId id)
  | .delete id => w.orKeep (w.delete id)
  | .setName id name => w.orKeep (w.setName id name)
  | .addComponent id component init => w.orKeep (w.addComponent id component init)
  | .removeComponent id component => w.orKeep ((w.removeComponent id component).map (·.2))
  | .setField id component field v => w.orKeep (w.setField id component field v)
  | .mergeField component f => w.mergeField component f
  | .register schema => w.register schema
  | .clone source target => w.orKeep ((w.clone source target).map (·.2))
  | .setBoundFunction id name f => w.orKeep (w.setBoundFunction id name f)
  | .clearEntities => w.clearEntities
  | .clear => w.clear

inductive Reachable : World → Prop
  | empty : Reachable empty
  | request {w} (r : Request) : Reachable w → Reachable (w.perform r)

def Request.Plain : Request → Prop
  | .mergeField .. | .register _ | .clear => False
  | _ => True

inductive Enters (w : World) : EntityId → World → Prop
  | fresh : Enters w w.entities.spawn.1 (touch { w with entities := w.entities.spawn.2 })
  | chosen (id : EntityId) (h : id ∉ w.entities.live) :
      Enters w id (touch { w with entities := w.entities.occupied id })

inductive Effect (w : World) : World → Prop
  | keep : Effect w w
  | enter {id : EntityId} {w' : World} (h : Enters w id w') : Effect w w'
  | delete (id : EntityId) : Effect w (touch { w with
      entities := { w.entities with live := w.entities.live.erase id }
      components := w.components.removeEntity id
      bound := w.bound.erase id
      names := w.names.filter fun p => p.2 ≠ id })
  | name (id : EntityId) (name : String) (h : id ∈ w.entities.live) :
      Effect w (touch { w with names := w.names.insert name id })
  | attach (id : EntityId) (component : String) (init : List (String × Value))
      (h : id ∈ w.entities.live) :
      Effect w (touch { w with components := w.components.attach id component init })
  | remove (id : EntityId) (component : String) :
      Effect w (touch { w with components := w.components.remove id component })
  | write (id : EntityId) (component field : String) (v : Value) (h : id ∈ w.entities.live) :
      Effect w (touch { w with
        components := (w.components.ensure id component).write id component field
          (w.components.coerce component field v) })
  | clone {source id : EntityId} {w' : World} (h : Enters w id w') :
      Effect w { w' with
        components := insertRecords w'.components id (w.recordsOf source)
        bound := match w.bound.find? source with
          | some fs => w'.bound.insert id fs
          | none => w'.bound }
  | bind (id : EntityId) (name : String) (f : BoundFunction) (h : id ∈ w.entities.live) :
      Effect w (touch { w with
        bound := w.bound.insert id (Table.put (w.functionsOf id) name f) })
  | clearEntities : Effect w w.clearEntities

theorem validate_eq (w : World) (id : EntityId) : w.validate id =
    if id ∈ w.entities.live then .ok () else .error ⟨.entityNotFound id, none⟩ := rfl

theorem guarded_ok {α : Type} {w : World} {id : EntityId} {f : Except Error α} {a : α}
    (h : (do w.validate id; f) = .ok a) : id ∈ w.entities.live ∧ f = .ok a := by
  rw [validate_eq] at h
  by_cases hid : id ∈ w.entities.live
  · rw [if_pos hid] at h
    exact ⟨hid, h⟩
  · rw [if_neg hid] at h
    cases h

theorem guarded_effect {w : World} {id : EntityId} {f : Except Error World}
    (h : id ∈ w.entities.live → Effect w (w.orKeep f)) :
    Effect w (w.orKeep (do w.validate id; f)) := by
  rw [validate_eq]
  split
  · next hid => exact h hid
  · exact .keep

theorem createWithId_cases (w : World) (id : EntityId) :
    (id ∈ w.entities.live ∧ ∃ e, w.createWithId id = .error e) ∨
      id ∉ w.entities.live ∧
        w.createWithId id = .ok (touch { w with entities := w.entities.occupied id }) := by
  unfold createWithId
  by_cases h : id ∈ w.entities.live
  · rw [EntityStore.insert_of_mem h]
    exact .inl ⟨h, _, rfl⟩
  · rw [EntityStore.insert_of_not_mem h]
    exact .inr ⟨h, rfl⟩

theorem delete_cases (w : World) (id : EntityId) :
    (id ∉ w.entities.live ∧ ∃ e, w.delete id = .error e) ∨
      id ∈ w.entities.live ∧ w.delete id = .ok (touch { w with
        entities := { w.entities with live := w.entities.live.erase id }
        components := w.components.removeEntity id
        bound := w.bound.erase id
        names := w.names.filter fun p => p.2 ≠ id }) := by
  unfold delete EntityStore.destroy
  by_cases h : id ∈ w.entities.live
  · rw [if_pos h]
    exact .inr ⟨h, rfl⟩
  · rw [if_neg h]
    exact .inl ⟨h, _, rfl⟩

def copied (w : World) (source id : EntityId) : World :=
  { w with
    components := insertRecords w.components id (w.recordsOf source)
    bound := match w.bound.find? source with
      | some fs => w.bound.insert id fs
      | none => w.bound }

inductive Admits (w : World) : Option EntityId → EntityId → World → Prop
  | fresh : Admits w none w.entities.spawn.1 (touch { w with entities := w.entities.spawn.2 })
  | chosen (id : EntityId) (h : id ∉ w.entities.live) :
      Admits w (some id) id (touch { w with entities := w.entities.occupied id })

theorem Admits.enters {w v : World} {target : Option EntityId} {id : EntityId}
    (h : Admits w target id v) : Enters w id v := by
  cases h with
  | fresh => exact .fresh
  | chosen id h => exact .chosen id h

theorem createWithId_of_live {w : World} {id : EntityId} (h : id ∈ w.entities.live) :
    w.createWithId id = .error ⟨.entityExists id, none⟩ := by
  rw [createWithId, EntityStore.insert_of_mem h]
  rfl

theorem clone_cases (w : World) (source : EntityId) (target : Option EntityId) :
    (source ∉ w.entities.live ∧ w.clone source target = .error ⟨.entityNotFound source, none⟩) ∨
      (source ∈ w.entities.live ∧ ∃ id, target = some id ∧ id ∈ w.entities.live ∧
        w.clone source target = .error ⟨.entityExists id, none⟩) ∨
      source ∈ w.entities.live ∧ ∃ id v, Admits w target id v ∧
        w.clone source target = .ok (id, v.copied source id) := by
  unfold clone
  rw [validate_eq]
  by_cases hs : source ∈ w.entities.live
  · rw [if_pos hs]
    refine .inr ?_
    cases target with
    | none => exact .inr ⟨hs, _, _, .fresh, rfl⟩
    | some id =>
        by_cases hid : id ∈ w.entities.live
        · refine .inl ⟨hs, id, rfl, hid, ?_⟩
          simp only [createWithId_of_live hid]
          rfl
        · rcases w.createWithId_cases id with ⟨h, -⟩ | ⟨-, h⟩
          · exact absurd h hid
          · refine .inr ⟨hs, id, _, .chosen id hid, ?_⟩
            simp only [h]
            rfl
  · rw [if_neg hs]
    exact .inl ⟨hs, rfl⟩

theorem clone_effect (w : World) (source : EntityId) (target : Option EntityId) :
    Effect w (w.orKeep ((w.clone source target).map (·.2))) := by
  rcases w.clone_cases source target with ⟨-, h⟩ | ⟨-, id, -, -, h⟩ | ⟨-, id, v, hv, h⟩
  · rw [h]
    exact .keep
  · rw [h]
    exact .keep
  · rw [h]
    cases hv with
    | fresh => exact .clone .fresh
    | chosen id hfree => exact .clone (.chosen id hfree)

theorem setField_effect (w : World) (id : EntityId) (component field : String) (v : Value) :
    Effect w (w.orKeep (w.setField id component field v)) := by
  refine guarded_effect fun hid => ?_
  rcases w.components.setField?_cases id component field v with ⟨-, h⟩ | ⟨-, h⟩
  · rw [h]
    exact .keep
  · rw [h]
    exact .write id component field v hid

/-- The schema with the field is registered, and instances are brought in line if there are any. -/
theorem mergeField_cases (w : World) (component : String) (f : FieldSchema) :
    ∃ schema, schema = ((w.schema? component).getD ⟨component, []⟩).upsertField f ∧
      (w.components.instances component = [] ∧ w.mergeField component f = w.register schema ∨
        w.mergeField component f = touch { w.register schema with
          components := (w.register schema).components.mapInstances component (alignField f) }) := by
  refine ⟨_, rfl, ?_⟩
  rw [mergeField]
  dsimp only
  split
  · next h => exact .inl ⟨List.isEmpty_iff.mp h, rfl⟩
  · exact .inr rfl

theorem removeComponent_cases (w : World) (id : EntityId) (component : String) :
    w.perform (.removeComponent id component) = w ∨ w.perform (.removeComponent id component) =
      touch { w with components := w.components.remove id component } := by
  rw [perform, removeComponent, validate_eq]
  split
  · by_cases h : w.components.has id component = true
    · rw [if_pos h]
      exact .inr rfl
    · rw [if_neg h]
      exact .inl rfl
  · exact .inl rfl

theorem perform_effect (w : World) {r : Request} (hr : r.Plain) : Effect w (w.perform r) := by
  cases r with
  | create => exact .enter .fresh
  | createWithId id =>
      rcases w.createWithId_cases id with ⟨-, e, h⟩ | ⟨hid, h⟩
      · rw [perform, h]
        exact .keep
      · rw [perform, h]
        exact .enter (.chosen id hid)
  | delete id =>
      rcases w.delete_cases id with ⟨-, e, h⟩ | ⟨-, h⟩
      · rw [perform, h]
        exact .keep
      · rw [perform, h]
        exact .delete id
  | setName id name => exact guarded_effect fun hid => .name id name hid
  | addComponent id component init => exact guarded_effect fun hid => .attach id component init hid
  | removeComponent id component =>
      rcases w.removeComponent_cases id component with h | h
      · rw [h]
        exact .keep
      · rw [h]
        exact .remove id component
  | setField id component field v => exact w.setField_effect id component field v
  | clone source target => exact w.clone_effect source target
  | setBoundFunction id name f => exact guarded_effect fun hid => .bind id name f hid
  | clearEntities => exact .clearEntities
  | mergeField | register | clear => exact hr.elim

/-- The index is in step with the records, and all that the world holds is about live entities. -/
structure Sound (w : World) : Prop where
  indexed : w.components.Indexed
  records : ∀ id component, w.components.has id component = true → id ∈ w.entities.live
  bound : ∀ p ∈ w.bound, p.1 ∈ w.entities.live
  names : ∀ p ∈ w.names, p.2 ∈ w.entities.live

theorem empty_sound (entities : EntityStore) (schemas : Table String ComponentSchema)
    (revision : UInt64) : Sound { entities, components := { schemas }, revision } where
  indexed _ _ := by simp [ComponentStore.components, ComponentStore.has, ComponentStore.get?,
    ComponentStore.instances]
  records _ _ h := by
    simp [ComponentStore.has, ComponentStore.get?, ComponentStore.instances] at h
  bound _ h := absurd h List.not_mem_nil
  names _ h := absurd h List.not_mem_nil

theorem Sound.touch {w : World} (hs : Sound w) : Sound w.touch :=
  ⟨hs.indexed, hs.records, hs.bound, hs.names⟩

theorem Enters.live {w w' : World} {id : EntityId} (h : Enters w id w') (x : EntityId) :
    x ∈ w'.entities.live ↔ x = id ∨ x ∈ w.entities.live := by
  cases h with
  | fresh => exact w.entities.spawn_live x
  | chosen id h => exact OrderedSet.mem_insert ..

theorem Sound.enter {w w' : World} {id : EntityId} (hs : Sound w) (h : Enters w id w') :
    Sound w' := by
  have hlive (x : EntityId) (hx : x ∈ w.entities.live) : x ∈ w'.entities.live :=
    (h.live x).mpr (.inr hx)
  cases h with
  | fresh | chosen =>
      exact ⟨hs.indexed, fun id c hc => hlive id (hs.records id c hc),
        fun p hp => hlive p.1 (hs.bound p hp), fun p hp => hlive p.2 (hs.names p hp)⟩

theorem Sound.delete {w : World} (hs : Sound w) (id : EntityId) : Sound (World.touch { w with
    entities := { w.entities with live := w.entities.live.erase id }
    components := w.components.removeEntity id
    bound := w.bound.erase id
    names := w.names.filter fun p => p.2 ≠ id }) where
  indexed := hs.indexed.removeEntity id
  records x c h := by
    obtain ⟨hne, h⟩ := (hs.indexed.has_removeEntity id x c).mp h
    exact (OrderedSet.mem_erase ..).mpr ⟨hne, hs.records x c h⟩
  bound p hp := by
    obtain ⟨hp, hne⟩ := List.mem_filter.mp hp
    exact (OrderedSet.mem_erase ..).mpr ⟨by simpa using hne, hs.bound p hp⟩
  names p hp := by
    obtain ⟨hp, hne⟩ := List.mem_filter.mp hp
    exact (OrderedSet.mem_erase ..).mpr ⟨by simpa using hne, hs.names p hp⟩

/-- Only the components change, in step with the index, and a new record is of a live entity. -/
theorem Sound.withComponents {w : World} (hs : Sound w) {s : ComponentStore} (hi : s.Indexed)
    (h : ∀ id c, s.has id c = true → id ∈ w.entities.live ∨ w.components.has id c = true) :
    Sound { w with components := s } where
  indexed := hi
  records id c hc := (h id c hc).elim (fun hid => hid) fun hc => hs.records id c hc
  bound := hs.bound
  names := hs.names

theorem Sound.register {w : World} (hs : Sound w) (schema : ComponentSchema) :
    Sound (w.register schema) := hs.withComponents hs.indexed fun _ _ h => .inr h

theorem Sound.mergeField {w : World} (hs : Sound w) (component : String) (f : FieldSchema) :
    Sound (w.mergeField component f) := by
  obtain ⟨schema, -, ⟨-, h⟩ | h⟩ := w.mergeField_cases component f
  · rw [h]
    exact hs.register schema
  · rw [h]
    refine ((hs.register _).withComponents ((hs.register _).indexed.mapInstances _ _) ?_).touch
    intro id c h
    rw [ComponentStore.has_mapInstances] at h
    exact .inr h

theorem Sound.attach {w : World} (hs : Sound w) {id : EntityId} (hid : id ∈ w.entities.live)
    (component : String) (init : List (String × Value)) :
    Sound { w with components := w.components.attach id component init } := by
  refine hs.withComponents (hs.indexed.attach id component init) fun x c h => ?_
  rcases (ComponentStore.has_insert ..).mp h with ⟨rfl, -⟩ | h
  · exact .inl hid
  · exact .inr h

theorem Sound.write {w : World} (hs : Sound w) {id : EntityId} (hid : id ∈ w.entities.live)
    (component field : String) (v : Value) : Sound { w with
      components := (w.components.ensure id component).write id component field v } := by
  have hhas : (w.components.ensure id component).has id component = true :=
    (ComponentStore.has_ensure ..).mpr (.inl ⟨rfl, rfl⟩)
  refine hs.withComponents ((hs.indexed.ensure id component).write id component hhas field v) ?_
  intro x c h
  rcases (ComponentStore.has_write_ensure ..).mp h with ⟨rfl, -⟩ | h
  · exact .inl hid
  · exact .inr h

theorem Sound.bind {w : World} (hs : Sound w) {id : EntityId} (hid : id ∈ w.entities.live)
    (fs : Fields BoundFunction) : Sound { w with bound := w.bound.insert id fs } where
  indexed := hs.indexed
  records := hs.records
  bound p hp := by
    rcases Table.mem_insert hp with rfl | hp
    · exact hid
    · exact hs.bound p hp
  names := hs.names

theorem Sound.name {w : World} (hs : Sound w) {id : EntityId} (hid : id ∈ w.entities.live)
    (name : String) : Sound { w with names := w.names.insert name id } where
  indexed := hs.indexed
  records := hs.records
  bound := hs.bound
  names p hp := by
    rcases Table.mem_insert hp with rfl | hp
    · exact hid
    · exact hs.names p hp

theorem Sound.insertRecords {w : World} (hs : Sound w) {id : EntityId}
    (hid : id ∈ w.entities.live) (records : List (String × Record)) :
    Sound { w with components := World.insertRecords w.components id records } := by
  refine hs.withComponents (hs.indexed.insertAll id records) fun x c h => ?_
  rcases (ComponentStore.has_insertAll ..).mp h with ⟨rfl, -⟩ | h
  · exact .inl hid
  · exact .inr h

/-- Records are removed by way of the index, so it has to list them all. -/
theorem Sound.clearEntities {w : World} (hs : Sound w) : Sound w.clearEntities := by
  obtain ⟨hindexed, hhas⟩ := hs.indexed.removeEntities w.entityIds
  refine ⟨hindexed, fun id c h => ?_, fun _ h => absurd h List.not_mem_nil,
    fun _ h => absurd h List.not_mem_nil⟩
  obtain ⟨hid, h⟩ := (hhas id c).mp h
  exact absurd (hs.records id c h) hid

theorem Effect.sound {w w' : World} (he : Effect w w') (hs : Sound w) : Sound w' := by
  cases he with
  | keep => exact hs
  | enter h => exact hs.enter h
  | delete id => exact hs.delete id
  | name id name h => exact (hs.name h name).touch
  | attach id component init h => exact (hs.attach h component init).touch
  | remove id component =>
      refine (hs.withComponents (hs.indexed.remove id component) fun x c h => ?_).touch
      exact .inr (w.components.has_of_remove id x component c h)
  | write id component field v h => exact (hs.write h component field _).touch
  | @clone source id w' h =>
      have hid : id ∈ w'.entities.live := (h.live id).mpr (.inl rfl)
      have hrecords := (hs.enter h).insertRecords hid (w.recordsOf source)
      cases w.bound.find? source with
      | none => exact hrecords
      | some fs => exact hrecords.bind hid fs
  | bind id name f h => exact (hs.bind h _).touch
  | clearEntities => exact hs.clearEntities

theorem Sound.perform {w : World} (hs : Sound w) (r : Request) : Sound (w.perform r) := by
  cases r with
  | mergeField component f => exact hs.mergeField component f
  | register schema => exact hs.register schema
  | clear => exact empty_sound ..
  | _ => exact Effect.sound (w.perform_effect trivial) hs

theorem Reachable.sound {w : World} (hr : Reachable w) : Sound w := by
  induction hr with
  | empty => exact empty_sound {} [] 0
  | request r _ ih => exact ih.perform r

theorem hasEntity_iff {w : World} {id : EntityId} :
    w.hasEntity id = true ↔ id ∈ w.entities.live := decide_eq_true_iff

theorem hasComponent_iff {w : World} {id : EntityId} {component : String} :
    w.hasComponent id component = true ↔
      id ∈ w.entities.live ∧ w.components.has id component = true := by
  rw [hasComponent, Bool.and_eq_true]
  exact and_congr_left' hasEntity_iff

/-- Nothing is known of the entity but whether it is live. -/
structure Blank (w : World) (id : EntityId) : Prop where
  has : ∀ component, w.hasComponent id component = false
  record : ∀ component, w.component? id component = none
  field : ∀ component field, w.field? id component field = none
  components : w.componentsOf id = []
  query : ∀ component components, id ∉ w.query (component :: components)
  functions : w.functionsOf id = []
  name : w.nameOf? id = none
  byName : ∀ name, w.entityByName? name ≠ some id

/-- What is not live is blank, and it stays so when it comes to life. -/
theorem Sound.blank {w w' : World} (hs : Sound w) {id : EntityId} (hid : id ∉ w.entities.live)
    (hc : w'.components = w.components) (hb : w'.bound = w.bound) (hn : w'.names = w.names) :
    Blank w' id := by
  have hhas (component : String) : w.components.has id component = false :=
    Bool.eq_false_iff.mpr fun h => hid (hs.records id component h)
  have hget (component : String) : w.components.get? id component = none := by
    simpa [ComponentStore.has] using hhas component
  refine ⟨?_, ?_, ?_, ?_, ?_, ?_, ?_, ?_⟩
  · intro component
    simp [hasComponent, hc, hhas]
  · intro component
    rw [component?, hc, hget]
  · intro component field
    simp [field?, hc, ComponentStore.getField?, hget]
  · rw [componentsOf, hc, List.eq_nil_iff_forall_not_mem]
    intro component hmem
    have h := (hs.indexed id component).mp hmem
    simp [hhas] at h
  · intro component components hmem
    rw [query, if_neg (by simp), hc, ComponentStore.mem_withAll] at hmem
    have h := hmem.2 component (by simp)
    simp [hhas] at h
  · have hnone : w.bound.find? id = none := by
      refine Option.eq_none_iff_forall_ne_some.mpr fun fs h => ?_
      exact hid (hs.bound _ (Table.mem_of_find? h))
    rw [functionsOf, hb, hnone]
    rfl
  · rw [nameOf?, hn, Option.map_eq_none_iff, List.find?_eq_none]
    intro p hp heq
    exact hid (of_decide_eq_true heq ▸ hs.names p hp)
  · intro name h
    rw [entityByName?, hn] at h
    exact hid (hs.names _ (Table.mem_of_find? (Option.eq_some_of_filter_eq_some h)))

/-- In every world the index and the records agree, and every entity that has a record, a listed
component, a function or a name is live. Nothing is left of an entity that is deleted or cleared
away, and an entity that comes to life has nothing, whatever was under its identifier before. -/
theorem reachable_sound {w : World} (hr : Reachable w) :
    (∀ id component, w.components.has id component = true ↔ component ∈ w.componentsOf id) ∧
      (∀ id component, w.components.has id component = true → w.hasEntity id = true) ∧
      (∀ id, w.componentsOf id ≠ [] → w.hasEntity id = true) ∧
      (∀ p ∈ w.bound, w.hasEntity p.1 = true) ∧ (∀ p ∈ w.names, w.hasEntity p.2 = true) ∧
      (∀ id, w.hasEntity id = false → Blank w id) ∧
      (∀ id w', w.delete id = .ok w' → w'.hasEntity id = false ∧ Blank w' id) ∧
      (∀ id, Blank w.clearEntities id ∧ Blank w.clear id) ∧
      (∀ id w', w.createWithId id = .ok w' → w'.hasEntity id = true ∧ Blank w' id) ∧
      (w.entityIds.length < 2 ^ 64 →
        w.create.2.hasEntity w.create.1 = true ∧ Blank w.create.2 w.create.1) := by
  have hs := hr.sound
  have hlive (w : World) (id : EntityId) : w.hasEntity id = true ↔ id ∈ w.entities.live :=
    decide_eq_true_iff
  have hdead (w : World) (id : EntityId) : w.hasEntity id = false ↔ id ∉ w.entities.live :=
    decide_eq_false_iff_not
  simp only [hlive, hdead]
  refine ⟨fun id c => (hs.indexed id c).symm, hs.records, ?_, hs.bound, hs.names,
    fun id hid => hs.blank hid rfl rfl rfl, ?_, ?_, ?_, ?_⟩
  · intro id hne
    obtain ⟨c, hc⟩ := List.exists_mem_of_ne_nil _ hne
    exact hs.records id c ((hs.indexed id c).mp hc)
  · intro id w' h
    rcases w.delete_cases id with ⟨-, e, h'⟩ | ⟨-, h'⟩
    · simp [h'] at h
    · obtain rfl := Except.ok.inj (h'.symm.trans h)
      have hid : id ∉ w.entities.live.erase id := by simp [OrderedSet.mem_erase]
      exact ⟨hid, (hs.delete id).blank hid rfl rfl rfl⟩
  · intro id
    exact ⟨hs.clearEntities.blank List.not_mem_nil rfl rfl rfl,
      (hs.perform .clear).blank List.not_mem_nil rfl rfl rfl⟩
  · intro id w' h
    rcases w.createWithId_cases id with ⟨-, e, h'⟩ | ⟨hid, h'⟩
    · simp [h'] at h
    · obtain rfl := Except.ok.inj (h'.symm.trans h)
      exact ⟨((Enters.chosen id hid).live id).mpr (.inl rfl), hs.blank hid rfl rfl rfl⟩
  · intro hlen
    exact ⟨(w.entities.spawn_live _).mpr (.inl rfl),
      hs.blank (EntityStore.spawn_fresh hlen) rfl rfl rfl⟩

def endowed : World :=
  ((empty.perform .create).perform (.addComponent (.ofNat 0) "Health" [])).perform
    (.setName (.ofNat 0) "hero")

theorem endowed_revived_blank :
    endowed.componentsOf (.ofNat 0) = ["Health"] ∧ endowed.nameOf? (.ofNat 0) = some "hero" ∧
      Reachable (endowed.perform (.delete (.ofNat 0))) ∧
      ∃ w, (endowed.perform (.delete (.ofNat 0))).createWithId (.ofNat 0) = .ok w ∧
        Blank w (.ofNat 0) := by
  have hr : Reachable (endowed.perform (.delete (.ofNat 0))) :=
    .request _ (.request _ (.request _ (.request _ .empty)))
  refine ⟨by decide +kernel, by decide +kernel, hr, ?_⟩
  rcases (endowed.perform (.delete (.ofNat 0))).createWithId_cases (.ofNat 0) with
    ⟨h, -⟩ | ⟨-, h⟩
  · exact absurd h (by decide +kernel)
  · exact ⟨_, h, ((reachable_sound hr).2.2.2.2.2.2.2.2.1 _ _ h).2⟩

end World

end RuleSim
