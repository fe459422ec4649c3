import RuleSim.Proofs.Value.Document

namespace RuleSim.Value

open Json (all narrow all_arr all_obj)

@[elab_as_elim]
theorem tree_induction {motive : Value → Prop} (null : motive .null)
    (bool : ∀ b, motive (.bool b)) (int : ∀ n, motive (.int n)) (float : ∀ x, motive (.float x))
    (str : ∀ s, motive (.str s)) (entity : ∀ e, motive (.entity e))
    (list : ∀ vs, (∀ v ∈ vs, motive v) → motive (.list vs))
    (map : ∀ es, (∀ p ∈ es, motive p.2) → motive (.map es)) : ∀ v, motive v
  | .null => null
  | .bool b => bool b
  | .int n => int n
  | .float x => float x
  | .str s => str s
  | .entity e => entity e
  | .list vs => list vs fun v _ => tree_induction null bool int float str entity list map v
  | .map es => map es fun p _ => tree_induction null bool int float str entity list map p.2
termination_by v => sizeOf v
decreasing_by
  · have := List.sizeOf_lt_of_mem ‹_›
    simp only [Value.list.sizeOf_spec]
    omega
  · have := List.sizeOf_lt_of_mem ‹_›
    obtain ⟨k, v⟩ := p
    simp only [Prod.mk.sizeOf_spec] at this
    simp only [Value.map.sizeOf_spec]
    omega

mutual

def parts : Value → List Value
  | list vs => list vs :: partsOfItems vs
  | map es => map es :: partsOfEntries es
  | v => [v]

def partsOfItems : List Value → List Value
  | [] => []
  | v :: vs => parts v ++ partsOfItems vs

def partsOfEntries : List (String × Value) → List Value
  | [] => []
  | (_, v) :: es => parts v ++ partsOfEntries es

end

theorem mem_partsOfItems {u : Value} {vs : List Value} :
    u ∈ partsOfItems vs ↔ ∃ v ∈ vs, u ∈ v.parts := by
  induction vs with
  | nil => simp [partsOfItems]
  | cons v vs ih => simp [partsOfItems, ih]

theorem mem_partsOfEntries {u : Value} {es : List (String × Value)} :
    u ∈ partsOfEntries es ↔ ∃ p ∈ es, u ∈ p.2.parts := by
  induction es with
  | nil => simp [partsOfEntries]
  | cons p es ih => simp [partsOfEntries, ih]

theorem mem_parts_list {u : Value} {vs : List Value} :
    u ∈ (list vs).parts ↔ u = list vs ∨ ∃ v ∈ vs, u ∈ v.parts := by
  rw [parts, List.mem_cons, mem_partsOfItems]

theorem mem_parts_map {u : Value} {es : List (String × Value)} :
    u ∈ (map es).parts ↔ u = map es ∨ ∃ p ∈ es, u ∈ p.2.parts := by
  rw [parts, List.mem_cons, mem_partsOfEntries]

theorem toJson_narrow (v : Value) : v.toJson.all narrow = true := by
  induction v using tree_induction with
  | null | bool | float | str => rfl
  | int n =>
      have hlo := n.le_toInt
      have hhi := n.toInt_lt
      simp only [toJson, all, narrow, Bool.and_eq_true, decide_eq_true_eq]
      omega
  | entity e => exact Json.narrow_of_plain (entity_plain e)
  | list vs ih =>
      rw [toJson, toJsonItems_eq, all_arr]
      exact ⟨rfl, List.forall_mem_map.mpr ih⟩
  | map es ih =>
      rw [toJson, toJsonEntries_eq, all_obj]
      exact ⟨rfl, List.forall_mem_map.mpr ih⟩

def reread (v : Value) : Value := ofJson v.toJson.sorted

theorem reread_list (vs : List Value) : (list vs).reread = list (vs.map reread) := by
  rw [reread, toJson, toJsonItems_eq, Json.sorted_arr, ofJson, ofJsonItems_eq, List.map_map,
    List.map_map]
  rfl

theorem reread_map {es : List (String × Value)} (h : Table.Ascending es) :
    (map es).reread = ofEntries (es.map fun p => (p.1, p.2.reread)) := by
  have hsorted : Table.Ascending (es.map fun p => (p.1, p.2.toJson.sorted)) :=
    h.map fun _ v => v.toJson.sorted
  rw [reread, toJson, toJsonEntries_eq, Json.sorted_obj, List.map_map]
  change ofJson (.obj (Table.ofList (es.map fun p => (p.1, p.2.toJson.sorted)))) = _
  rw [Table.ofList_of_ascending hsorted, ofJson, ofJsonEntries_eq, List.map_map]
  rfl

theorem reread_entity (e : EntityId) : (entity e).reread = entity e ↔ e.Exact := by
  change ofEntries [(entityKey, ofInt e.toNat)] = entity e ↔ _
  rw [ofEntries, if_pos rfl, EntityId.Exact]
  cases (ofInt e.toNat).asEntity? <;> simp

theorem ofEntries_of_keys {es : List (String × Value)} (h : Table.keys es ≠ [entityKey]) :
    ofEntries es = map es := by
  rcases ofEntries_cases es with hes | ⟨v, e, rfl, -, -⟩
  · exact hes
  · exact absurd rfl h

/-- If maps are in order and none has the form of a reference, only references can be misread. -/
theorem reread_eq_iff {v : Value}
    (h : ∀ es, map es ∈ v.parts → Table.Ascending es ∧ Table.keys es ≠ [entityKey]) :
    v.reread = v ↔ ∀ e, entity e ∈ v.parts → e.Exact := by
  induction v using tree_induction with
  | null | bool | float | str => exact iff_of_true rfl (by simp [parts])
  | int n =>
      refine iff_of_true ?_ (by simp [parts])
      rw [reread, toJson, Json.sorted_int, ofJson, ofInt, if_pos ⟨n.le_toInt, n.toInt_lt⟩,
        Int64.ofInt_toInt]
  | entity e => simp [reread_entity, parts]
  | list vs ih =>
      have hvs (v : Value) (hv : v ∈ vs) :=
        ih v hv fun es hes => h es (mem_parts_list.mpr (.inr ⟨v, hv, hes⟩))
      have hsame : (list vs).reread = list vs ↔ ∀ v ∈ vs, v.reread = v := by
        have hitems := List.map_inj_left (l := vs) (f := reread) (g := id)
        rwa [List.map_id, ← list.injEq, ← reread_list] at hitems
      rw [hsame, forall₂_congr hvs]
      simp only [mem_parts_list, reduceCtorEq, false_or]
      constructor
      · rintro hall e ⟨v, hv, he⟩
        exact hall v hv e he
      · exact fun hall v hv e he => hall e ⟨v, hv, he⟩
  | map es ih =>
      obtain ⟨hascending, hkeys⟩ := h es (mem_parts_map.mpr (.inl rfl))
      have hes (p : String × Value) (hp : p ∈ es) :=
        ih p hp fun es' hes' => h es' (mem_parts_map.mpr (.inr ⟨p, hp, hes'⟩))
      have hkeys' : Table.keys (es.map fun p => (p.1, p.2.reread)) ≠ [entityKey] := by
        rwa [Table.keys, List.map_map]
      have hsame : (map es).reread = map es ↔ ∀ p ∈ es, p.2.reread = p.2 := by
        rw [reread_map hascending, ofEntries_of_keys hkeys', map.injEq, Table.map_eq_self_iff]
      rw [hsame, forall₂_congr hes]
      simp only [mem_parts_map, reduceCtorEq, false_or]
      constructor
      · rintro hall e ⟨p, hp, he⟩
        exact hall p hp e he
      · exact fun hall p hp e he => hall e ⟨p, hp, he⟩

end RuleSim.Value
