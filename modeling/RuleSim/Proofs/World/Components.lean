import Mathlib.Data.List.Perm.Basic
import RuleSim.Proofs.Table
import RuleSim.World.ComponentStore

namespace RuleSim.ComponentStore

variable (s : ComponentStore) (entity e : EntityId) (component c : String)

theorem instances_insert (record : Record) : (s.insert entity component record).instances c =
    if c = component then (s.instances component).insert entity record else s.instances c := by
  unfold instances insert
  rw [Table.find?_insert]
  split <;> rfl

theorem components_insert (record : Record) : (s.insert entity component record).components e =
    if e = entity then (s.components entity).insert component else s.components e := by
  unfold components insert
  rw [Table.find?_insert]
  split <;> rfl

theorem get?_of_instances {t : ComponentStore} {record : Record} (h : ∀ c, t.instances c =
    if c = component then (s.instances component).insert entity record else s.instances c) :
    t.get? e c = if e = entity ∧ c = component then some record else s.get? e c := by
  rw [get?, h]
  by_cases hc : c = component
  · subst c
    rw [if_pos rfl, Table.find?_insert]
    by_cases he : e = entity <;> simp [he, get?]
  · simp [hc, get?]

theorem get?_insert (record : Record) : (s.insert entity component record).get? e c =
    if e = entity ∧ c = component then some record else s.get? e c :=
  get?_of_instances s entity e component c fun c => instances_insert s entity component c record

theorem instances_remove (h : s.has entity component = true) :
    (s.remove entity component).instances c =
      if c = component then (s.instances component).erase entity else s.instances c := by
  unfold remove instances
  rw [if_pos h]
  dsimp only
  rw [Table.find?_insert]
  split <;> rfl

theorem components_remove (h : s.has entity component = true) :
    (s.remove entity component).components e =
      if e = entity then (s.components entity).erase component else s.components e := by
  unfold remove components
  rw [if_pos h]
  dsimp only
  rw [Table.find?_insert]
  split <;> rfl

theorem find?_dropRecords (data : Table String (Table EntityId Record)) (names : List String) :
    ((dropRecords data entity names).find? c).getD [] =
      if c ∈ names then Table.erase ((data.find? c).getD []) entity
      else (data.find? c).getD [] := by
  induction names generalizing data with
  | nil => simp [dropRecords]
  | cons n ns ih =>
      rw [dropRecords]
      cases hn : data.find? n with
      | none =>
          dsimp only
          rw [ih]
          by_cases hc : c = n
          · subst c
            simp [hn, Table.erase]
          · simp [hc]
      | some table =>
          dsimp only
          rw [ih, Table.find?_insert]
          by_cases hc : c = n
          · subst c
            simp [hn, Table.erase]
          · simp [hc]

theorem instances_removeEntity : (s.removeEntity entity).instances c =
    if c ∈ s.components entity then (s.instances c).erase entity else s.instances c :=
  find?_dropRecords entity c s.data (s.components entity)

theorem components_removeEntity : (s.removeEntity entity).components e =
    if e = entity then [] else s.components e := by
  unfold removeEntity components
  dsimp only
  rw [Table.find?_erase]
  split <;> rfl

def write (field : String) (v : Value) : ComponentStore :=
  { s with
    data := s.data.insert component ((s.instances component).insert entity
      (Table.insert ((s.get? entity component).getD []) field v)) }

theorem instances_write (field : String) (v : Value) :
    (s.write entity component field v).instances c =
      if c = component then (s.instances component).insert entity
        (Table.insert ((s.get? entity component).getD []) field v)
      else s.instances c := by
  unfold write instances
  dsimp only
  rw [Table.find?_insert]
  split <;> rfl

theorem setField?_cases (field : String) (v : Value) :
    (s.getField? entity component field = some (s.coerce component field v) ∧
        s.setField? entity component field v = none) ∨
      s.getField? entity component field ≠ some (s.coerce component field v) ∧
        s.setField? entity component field v = some ((s.ensure entity component).write entity
          component field (s.coerce component field v)) := by
  unfold setField?
  dsimp only
  split
  · next h => exact .inl ⟨h, rfl⟩
  · next h => exact .inr ⟨h, rfl⟩

theorem instances_mapInstances (f : Record → Record) : (s.mapInstances component f).instances c =
    if c = component then (s.instances component).map fun p => (p.1, f p.2)
    else s.instances c := by
  unfold mapInstances
  by_cases hc : c = component
  · subst c
    cases h : s.data.find? component with
    | none => simp [instances, h]
    | some table => simp [instances, h, Table.find?_insert]
  · cases h : s.data.find? component with
    | none => simp [hc]
    | some table => simp [instances, hc, Table.find?_insert]

theorem components_mapInstances (f : Record → Record) :
    (s.mapInstances component f).components e = s.components e := by
  unfold mapInstances
  split <;> rfl

theorem get?_remove (h : s.has entity component = true) :
    (s.remove entity component).get? e c =
      if e = entity ∧ c = component then none else s.get? e c := by
  rw [get?, s.instances_remove _ _ _ h]
  by_cases hc : c = component
  · subst c
    rw [if_pos rfl, Table.find?_erase]
    by_cases he : e = entity <;> simp [he, get?]
  · simp [hc, get?]

theorem get?_of_remove {record : Record} (h : (s.remove entity component).get? e c = some record) :
    s.get? e c = some record := by
  by_cases hh : s.has entity component = true
  · rw [s.get?_remove _ _ _ _ hh] at h
    split_ifs at h
    exact h
  · rwa [remove, if_neg hh] at h

theorem get?_of_removeEntity {record : Record}
    (h : (s.removeEntity entity).get? e c = some record) : s.get? e c = some record := by
  rw [get?, instances_removeEntity] at h
  split_ifs at h
  · rw [Table.find?_erase] at h
    split_ifs at h
    exact h
  · exact h

theorem get?_write (field : String) (v : Value) : (s.write entity component field v).get? e c =
    if e = entity ∧ c = component then
      some (Table.insert ((s.get? entity component).getD []) field v)
    else s.get? e c :=
  get?_of_instances s entity e component c fun c => instances_write s entity component c field v

theorem get?_mapInstances (f : Record → Record) : (s.mapInstances component f).get? e c =
    if c = component then (s.get? e component).map f else s.get? e c := by
  rw [get?, instances_mapInstances]
  split
  · exact Table.find?_map ..
  · rfl

theorem has_insert (record : Record) : (s.insert entity component record).has e c = true ↔
    (e = entity ∧ c = component) ∨ s.has e c = true := by
  rw [has, get?_insert]
  by_cases h : e = entity ∧ c = component <;> simp [h, has]

theorem has_of_remove (h : (s.remove entity component).has e c = true) : s.has e c = true := by
  obtain ⟨record, hrecord⟩ := Option.isSome_iff_exists.mp h
  exact Option.isSome_iff_exists.mpr ⟨record, s.get?_of_remove _ _ _ _ hrecord⟩

theorem has_remove_of_ne (hne : ¬ (e = entity ∧ c = component)) (h : s.has e c = true) :
    (s.remove entity component).has e c = true := by
  by_cases hh : s.has entity component = true
  · rw [has, s.get?_remove _ _ _ _ hh, if_neg hne]
    exact h
  · rwa [remove, if_neg hh]

theorem get?_removeEntity_of_ne (hne : e ≠ entity) :
    (s.removeEntity entity).get? e c = s.get? e c := by
  rw [get?, instances_removeEntity]
  split
  · rw [Table.find?_erase, if_neg hne, get?]
  · rfl

theorem has_removeEntity_of_ne (hne : e ≠ entity) (h : s.has e c = true) :
    (s.removeEntity entity).has e c = true := by
  rw [has, s.get?_removeEntity_of_ne _ _ _ hne]
  exact h

theorem has_ensure : (s.ensure entity component).has e c = true ↔
    (e = entity ∧ c = component) ∨ s.has e c = true := by
  unfold ensure
  split
  · next h =>
      refine ⟨.inr, ?_⟩
      rintro (⟨rfl, rfl⟩ | hec)
      · exact h
      · exact hec
  · exact s.has_insert ..

variable {s} in
theorem has_write (hh : s.has entity component = true) (field : String) (v : Value) :
    (s.write entity component field v).has e c = s.has e c := by
  rw [has, get?_write]
  split
  · next h => rw [h.1, h.2, hh, Option.isSome_some]
  · rfl

theorem has_write_ensure (field : String) (v : Value) :
    ((s.ensure entity component).write entity component field v).has e c = true ↔
      (e = entity ∧ c = component) ∨ s.has e c = true := by
  have hensured : (s.ensure entity component).has entity component = true :=
    (s.has_ensure ..).mpr (.inl ⟨rfl, rfl⟩)
  rw [has_write _ _ _ _ hensured, has_ensure]

theorem has_mapInstances (f : Record → Record) :
    (s.mapInstances component f).has e c = s.has e c := by
  rw [has, get?_mapInstances]
  split
  · next hc => rw [Option.isSome_map, hc, has]
  · rfl

def Indexed : Prop := ∀ e c, c ∈ s.components e ↔ s.has e c = true

variable {s}

theorem Indexed.insert (h : Indexed s) (record : Record) :
    Indexed (s.insert entity component record) := by
  intro e c
  rw [components_insert, has_insert, ← h e c]
  by_cases he : e = entity
  · subst e
    simp [OrderedSet.mem_insert]
  · simp [he]

theorem Indexed.attach (h : Indexed s) (init : List (String × Value)) :
    Indexed (s.attach entity component init) := h.insert _ _ _

theorem Indexed.remove (h : Indexed s) : Indexed (s.remove entity component) := by
  by_cases hh : s.has entity component = true
  · intro e c
    have hec := h e c
    unfold has get? at hec ⊢
    rw [s.components_remove _ _ _ hh, s.instances_remove _ _ _ hh]
    by_cases he : e = entity
    · subst e
      rw [if_pos rfl, OrderedSet.mem_erase]
      by_cases hc : c = component
      · simp [hc, Table.find?_erase]
      · simp [hc, hec]
    · by_cases hc : c = component
      · simpa [he, hc, Table.find?_erase] using hc ▸ hec
      · simp [he, hc, hec]
  · rwa [ComponentStore.remove, if_neg hh]

theorem Indexed.has_removeEntity (h : Indexed s) :
    (s.removeEntity entity).has e c = true ↔ e ≠ entity ∧ s.has e c = true := by
  have hec := h e c
  unfold has get? at hec ⊢
  rw [instances_removeEntity]
  by_cases he : e = entity
  · subst e
    by_cases hc : c ∈ s.components entity
    · simp [hc, Table.find?_erase]
    · simp only [hc, false_iff] at hec
      simp [hc, hec]
  · by_cases hc : c ∈ s.components entity <;> simp [he, hc, Table.find?_erase]

theorem Indexed.removeEntity (h : Indexed s) : Indexed (s.removeEntity entity) := by
  intro e c
  rw [h.has_removeEntity, components_removeEntity, ← h e c]
  by_cases he : e = entity <;> simp [he]

theorem Indexed.ensure (h : Indexed s) : Indexed (s.ensure entity component) := by
  unfold ComponentStore.ensure
  split
  · exact h
  · exact h.attach _ _ _

theorem Indexed.write (h : Indexed s) (hh : s.has entity component = true) (field : String)
    (v : Value) : Indexed (s.write entity component field v) := by
  intro e c
  rw [has_write _ _ _ _ hh]
  exact h e c

theorem Indexed.mapInstances (h : Indexed s) (f : Record → Record) :
    Indexed (s.mapInstances component f) := by
  intro e c
  rw [components_mapInstances, has_mapInstances]
  exact h e c

theorem Indexed.insertAll (h : Indexed s) (records : List (String × Record)) :
    Indexed (records.foldl (fun s p => s.insert entity p.1 p.2) s) := by
  induction records generalizing s with
  | nil => exact h
  | cons p records ih => exact ih (h.insert entity p.1 p.2)

theorem has_insertAll (records : List (String × Record)) :
    (records.foldl (fun s p => s.insert entity p.1 p.2) s).has e c = true ↔
      (e = entity ∧ c ∈ records.map (·.1)) ∨ s.has e c = true := by
  induction records generalizing s with
  | nil => simp
  | cons p records ih =>
      rw [List.foldl_cons, ih, has_insert, List.map_cons, List.mem_cons]
      tauto

theorem Indexed.removeEntities (h : Indexed s) (ids : List EntityId) :
    Indexed (ids.foldl ComponentStore.removeEntity s) ∧
      ∀ e c, (ids.foldl ComponentStore.removeEntity s).has e c = true ↔
        e ∉ ids ∧ s.has e c = true := by
  induction ids generalizing s with
  | nil => simpa using h
  | cons id ids ih =>
      obtain ⟨hindexed, hhas⟩ := ih (h.removeEntity id)
      refine ⟨hindexed, fun e c => ?_⟩
      rw [List.foldl_cons, hhas, h.has_removeEntity, List.mem_cons]
      tauto

theorem smallestFirst_perm {α : Type} (first : List α) (rest : List (List α)) :
    ((smallestFirst first rest).1 :: (smallestFirst first rest).2).Perm (first :: rest) := by
  induction rest generalizing first with
  | nil => exact .refl _
  | cons t ts ih =>
      rw [smallestFirst]
      split
      · exact ((List.Perm.swap ..).trans ((ih t).cons first))
      · exact ((List.Perm.swap ..).trans ((ih first).cons t)).trans (.swap ..)

theorem mem_withAll {components : List String} : entity ∈ s.withAll components ↔
    components ≠ [] ∧ ∀ c ∈ components, s.has entity c = true := by
  have hhas (c : String) : Table.contains (s.instances c) entity = s.has entity c := rfl
  unfold withAll
  cases components with
  | nil => simp
  | cons c cs =>
      have hperm := smallestFirst_perm (s.instances c) (cs.map s.instances)
      have hall : (∀ t ∈ (smallestFirst (s.instances c) (cs.map s.instances)).1 ::
          (smallestFirst (s.instances c) (cs.map s.instances)).2,
            Table.contains t entity = true) ↔ ∀ c' ∈ c :: cs, s.has entity c' = true := by
        simp only [hperm.mem_iff]
        simp [hhas]
      rw [← hall, List.forall_mem_cons]
      simp [List.mem_filter, Table.mem_keys_iff, List.all_eq_true]

end RuleSim.ComponentStore
