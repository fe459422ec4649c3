import Mathlib.Data.List.Sort
import RuleSim.Proofs.Table
import RuleSim.Proofs.World.Sound

namespace RuleSim

instance : IsStrictTotalOrder EntityId (· < ·) where
  irrefl id := UInt64.lt_irrefl id.raw
  trans _ _ _ := UInt64.lt_trans
  trichotomous a b hab hba := by
    have hraw : a.raw = b.raw := UInt64.le_antisymm (UInt64.not_lt.mp hba) (UInt64.not_lt.mp hab)
    cases a
    exact congrArg EntityId.mk hraw

namespace OrderedSet

variable {α : Type} [DecidableEq α] [LT α]

def Ascending (s : OrderedSet α) : Prop := s.Pairwise (· < ·)

omit [DecidableEq α] in
/-- The members alone tell an ascending list. -/
theorem Ascending.ext [IsStrictTotalOrder α (· < ·)] {s t : OrderedSet α} (hs : s.Ascending)
    (ht : t.Ascending) (h : ∀ a, a ∈ s ↔ a ∈ t) : s = t :=
  List.Pairwise.eq_of_mem_iff hs ht h

theorem Ascending.erase {s : OrderedSet α} (h : s.Ascending) (a : α) : (s.erase a).Ascending :=
  List.Pairwise.filter _ h

theorem Ascending.insert [DecidableLT α] [IsStrictTotalOrder α (· < ·)] {s : OrderedSet α}
    (h : s.Ascending) (a : α) : (s.insert a).Ascending := by
  induction s with
  | nil => exact List.pairwise_singleton ..
  | cons b s ih =>
      obtain ⟨hb, hs⟩ := List.pairwise_cons.mp h
      rw [OrderedSet.insert]
      split
      · exact h
      · next hne =>
          split
          · next hlt =>
              refine List.pairwise_cons.mpr ⟨fun c hc => ?_, h⟩
              rcases List.mem_cons.mp hc with rfl | hc
              · exact hlt
              · exact trans_of (· < ·) hlt (hb c hc)
          · next hlt =>
              refine List.pairwise_cons.mpr ⟨fun c hc => ?_, ih hs⟩
              rcases (mem_insert ..).mp hc with rfl | hc
              · rcases trichotomous_of (· < ·) c b with h | h | h
                · exact absurd h hlt
                · exact absurd h hne
                · exact h
              · exact hb c hc

end OrderedSet

theorem ComponentSchema.instantiate_ascending (schema : ComponentSchema)
    (init : List (String × Value)) : Table.Ascending (schema.instantiate init) :=
  Table.ascending_insertAll (Table.ascending_ofList _) _

theorem World.alignField_ascending {r : Record} (h : Table.Ascending r) (f : FieldSchema) :
    Table.Ascending (alignField f r) := by
  unfold alignField
  split
  · exact h.insert ..
  · exact h.insert ..

namespace ComponentStore

structure Ordered (s : ComponentStore) : Prop where
  components : ∀ entity, (s.components entity).Ascending
  instances : ∀ component, Table.Ascending (s.instances component)
  records : ∀ entity component r, s.get? entity component = some r → Table.Ascending r

variable {s : ComponentStore} (entity : EntityId) (component : String)

theorem newRecord_ascending (s : ComponentStore) (component : String)
    (init : List (String × Value)) : Table.Ascending (s.newRecord component init) := by
  unfold newRecord
  split
  · exact ComponentSchema.instantiate_ascending ..
  · exact Table.ascending_ofList init

theorem Ordered.insert (h : Ordered s) {record : Record} (hr : Table.Ascending record) :
    Ordered (s.insert entity component record) where
  components e := by
    rw [components_insert]
    split
    · exact (h.components entity).insert component
    · exact h.components e
  instances c := by
    rw [instances_insert]
    split
    · exact (h.instances component).insert entity record
    · exact h.instances c
  records e c r hget := by
    rw [get?_insert] at hget
    split_ifs at hget
    · exact Option.some.inj hget ▸ hr
    · exact h.records e c r hget

theorem Ordered.attach (h : Ordered s) (init : List (String × Value)) :
    Ordered (s.attach entity component init) :=
  h.insert entity component (s.newRecord_ascending component init)

theorem Ordered.remove (h : Ordered s) : Ordered (s.remove entity component) := by
  by_cases hh : s.has entity component = true
  · refine ⟨fun e => ?_, fun c => ?_, fun e c r hget =>
      h.records e c r (get?_of_remove _ _ _ _ _ hget)⟩
    · rw [components_remove _ _ _ _ hh]
      split
      · exact (h.components entity).erase component
      · exact h.components e
    · rw [instances_remove _ _ _ _ hh]
      split
      · exact (h.instances component).erase entity
      · exact h.instances c
  · rwa [ComponentStore.remove, if_neg hh]

theorem Ordered.removeEntity (h : Ordered s) : Ordered (s.removeEntity entity) where
  components e := by
    rw [components_removeEntity]
    split
    · exact List.Pairwise.nil
    · exact h.components e
  instances c := by
    rw [instances_removeEntity]
    split
    · exact (h.instances c).erase entity
    · exact h.instances c
  records e c r hget := h.records e c r (get?_of_removeEntity _ _ _ _ hget)

theorem Ordered.removeEntities (h : Ordered s) (ids : List EntityId) :
    Ordered (ids.foldl ComponentStore.removeEntity s) := by
  induction ids generalizing s with
  | nil => exact h
  | cons id ids ih => exact ih (h.removeEntity id)

theorem Ordered.ensure (h : Ordered s) : Ordered (s.ensure entity component) := by
  unfold ComponentStore.ensure
  split
  · exact h
  · exact h.attach entity component []

theorem Ordered.write (h : Ordered s) (field : String) (v : Value) :
    Ordered (s.write entity component field v) where
  components := h.components
  instances c := by
    rw [instances_write]
    split
    · exact (h.instances component).insert entity _
    · exact h.instances c
  records e c r hget := by
    have hheld : Table.Ascending ((s.get? entity component).getD []) := by
      cases hr : s.get? entity component with
      | none => exact List.Pairwise.nil
      | some r => exact h.records entity component r hr
    rw [get?_write] at hget
    split_ifs at hget
    · exact Option.some.inj hget ▸ hheld.insert field v
    · exact h.records e c r hget

theorem Ordered.mapInstances (h : Ordered s) {f : Record → Record}
    (hf : ∀ r, Table.Ascending r → Table.Ascending (f r)) :
    Ordered (s.mapInstances component f) where
  components e := by
    rw [components_mapInstances]
    exact h.components e
  instances c := by
    rw [instances_mapInstances]
    split
    · exact (h.instances component).map fun _ => f
    · exact h.instances c
  records e c r hget := by
    rw [get?_mapInstances] at hget
    split_ifs at hget with hc
    · obtain ⟨r, hr, rfl⟩ := Option.map_eq_some_iff.mp hget
      exact hf r (h.records e component r hr)
    · exact h.records e c r hget

end ComponentStore

namespace World

structure Ordered (w : World) : Prop where
  live : w.entities.live.Ascending
  components : w.components.Ordered

theorem empty_ordered (schemas : Table String ComponentSchema) (revision : UInt64) :
    Ordered { components := { schemas }, revision } where
  live := List.Pairwise.nil
  components := ⟨fun _ => List.Pairwise.nil, fun _ => List.Pairwise.nil, fun _ _ _ => nofun⟩

theorem Ordered.recordsOf {w : World} (h : Ordered w) (id : EntityId) :
    Table.Ascending (w.recordsOf id) ∧ ∀ p ∈ w.recordsOf id, Table.Ascending p.2 := by
  refine ⟨?_, fun p hp => ?_⟩
  · refine List.Pairwise.filterMap _ ?_ (h.components.components id)
    intro c d hlt p hp q hq
    obtain ⟨r, -, rfl⟩ := Option.map_eq_some_iff.mp hp
    obtain ⟨r', -, rfl⟩ := Option.map_eq_some_iff.mp hq
    exact hlt
  · obtain ⟨c, -, hc⟩ := List.mem_filterMap.mp hp
    obtain ⟨r, hr, rfl⟩ := Option.map_eq_some_iff.mp hc
    exact h.components.records id c r hr

theorem insertRecords_ordered {s : ComponentStore} (h : s.Ordered) (id : EntityId)
    {records : List (String × Record)} (hr : ∀ p ∈ records, Table.Ascending p.2) :
    (insertRecords s id records).Ordered := by
  unfold insertRecords
  induction records generalizing s with
  | nil => exact h
  | cons p records ih =>
      rw [List.forall_mem_cons] at hr
      exact ih (h.insert id p.1 hr.1) hr.2

theorem Ordered.enter {w w' : World} {id : EntityId} (h : Ordered w) (he : Enters w id w') :
    Ordered w' := by
  cases he with
  | fresh | chosen => exact ⟨h.live.insert _, h.components⟩

theorem Effect.ordered {w w' : World} (he : Effect w w') (h : Ordered w) : Ordered w' := by
  cases he with
  | keep => exact h
  | enter he => exact h.enter he
  | delete id => exact ⟨h.live.erase id, h.components.removeEntity id⟩
  | name | bind => exact ⟨h.live, h.components⟩
  | attach id component init => exact ⟨h.live, h.components.attach id component init⟩
  | remove id component => exact ⟨h.live, h.components.remove id component⟩
  | write id component field v =>
      exact ⟨h.live, (h.components.ensure id component).write id component field _⟩
  | @clone source id w' he =>
      have hw' := h.enter he
      exact ⟨hw'.live, insertRecords_ordered hw'.components id (h.recordsOf source).2⟩
  | clearEntities => exact ⟨List.Pairwise.nil, h.components.removeEntities w.entityIds⟩

theorem Ordered.register {w : World} (h : Ordered w) (schema : ComponentSchema) :
    Ordered (w.register schema) :=
  ⟨h.live, h.components.components, h.components.instances, h.components.records⟩

theorem Ordered.mergeField {w : World} (h : Ordered w) (component : String) (f : FieldSchema) :
    Ordered (w.mergeField component f) := by
  obtain ⟨schema, -, ⟨-, hw⟩ | hw⟩ := w.mergeField_cases component f
  · rw [hw]
    exact h.register schema
  · rw [hw]
    exact ⟨h.live, (h.register schema).components.mapInstances component fun r hr =>
      alignField_ascending hr f⟩

theorem Ordered.perform {w : World} (h : Ordered w) (r : Request) : Ordered (w.perform r) := by
  cases r with
  | mergeField component f => exact h.mergeField component f
  | register schema => exact h.register schema
  | clear => exact empty_ordered ..
  | _ => exact Effect.ordered (w.perform_effect trivial) h

theorem Reachable.ordered {w : World} (hr : Reachable w) : Ordered w := by
  induction hr with
  | empty => exact empty_ordered [] 0
  | request r _ ih => exact ih.perform r

end World

end RuleSim
