import RuleSim.Json.Reader
import RuleSim.Proofs.MessagePack
import RuleSim.Proofs.Table

namespace RuleSim.Json

@[elab_as_elim]
theorem tree_induction {motive : Json → Prop} (null : motive .null)
    (bool : ∀ b, motive (.bool b)) (int : ∀ n, motive (.int n)) (float : ∀ x, motive (.float x))
    (str : ∀ s, motive (.str s)) (arr : ∀ items, (∀ j ∈ items, motive j) → motive (.arr items))
    (obj : ∀ es, (∀ p ∈ es, motive p.2) → motive (.obj es)) : ∀ j, motive j
  | .null => null
  | .bool b => bool b
  | .int n => int n
  | .float x => float x
  | .str s => str s
  | .arr items =>
      arr items fun j _ => tree_induction null bool int float str arr obj j
  | .obj es =>
      obj es fun p _ => tree_induction null bool int float str arr obj p.2
termination_by j => sizeOf j
decreasing_by
  · have := List.sizeOf_lt_of_mem ‹_›
    simp only [Json.arr.sizeOf_spec]
    omega
  · have := List.sizeOf_lt_of_mem ‹_›
    obtain ⟨k, j⟩ := p
    simp only [Prod.mk.sizeOf_spec] at this
    simp only [Json.obj.sizeOf_spec]
    omega

mutual

def depth : Json → Nat
  | arr items => depthItems items + 1
  | obj es => depthEntries es + 1
  | _ => 0

def depthItems : List Json → Nat
  | [] => 0
  | j :: js => max (depth j) (depthItems js)

def depthEntries : List (String × Json) → Nat
  | [] => 0
  | (_, j) :: es => max (depth j) (depthEntries es)

end

theorem depthItems_le {items : List Json} {d : Nat} :
    depthItems items ≤ d ↔ ∀ j ∈ items, j.depth ≤ d := by
  induction items with
  | nil => simp [depthItems]
  | cons j js ih => simp [depthItems, ih]

theorem depthEntries_le {es : List (String × Json)} {d : Nat} :
    depthEntries es ≤ d ↔ ∀ p ∈ es, p.2.depth ≤ d := by
  induction es with
  | nil => simp [depthEntries]
  | cons p es ih => simp [depthEntries, ih]

theorem depth_arr {items : List Json} {d : Nat} :
    (arr items).depth ≤ d + 1 ↔ ∀ j ∈ items, j.depth ≤ d := by
  rw [depth, Nat.succ_le_succ_iff, depthItems_le]

theorem depth_obj {es : List (String × Json)} {d : Nat} :
    (obj es).depth ≤ d + 1 ↔ ∀ p ∈ es, p.2.depth ≤ d := by
  rw [depth, Nat.succ_le_succ_iff, depthEntries_le]

mutual

def all (f : Json → Bool) : Json → Bool
  | arr items => f (arr items) && allItems f items
  | obj es => f (obj es) && allEntries f es
  | j => f j

def allItems (f : Json → Bool) : List Json → Bool
  | [] => true
  | j :: js => all f j && allItems f js

def allEntries (f : Json → Bool) : List (String × Json) → Bool
  | [] => true
  | (_, j) :: es => all f j && allEntries f es

end

variable {f : Json → Bool}

theorem allItems_iff {items : List Json} :
    allItems f items = true ↔ ∀ j ∈ items, j.all f = true := by
  induction items with
  | nil => simp [allItems]
  | cons j js ih => simp [allItems, ih]

theorem allEntries_iff {es : List (String × Json)} :
    allEntries f es = true ↔ ∀ p ∈ es, p.2.all f = true := by
  induction es with
  | nil => simp [allEntries]
  | cons p es ih => simp [allEntries, ih]

theorem all_arr {items : List Json} :
    (arr items).all f = true ↔ f (arr items) = true ∧ ∀ j ∈ items, j.all f = true := by
  rw [all, Bool.and_eq_true, allItems_iff]

theorem all_obj {es : List (String × Json)} :
    (obj es).all f = true ↔ f (obj es) = true ∧ ∀ p ∈ es, p.2.all f = true := by
  rw [all, Bool.and_eq_true, allEntries_iff]

def small : Json → Bool
  | str s => s.utf8ByteSize < 2 ^ 32
  | arr items => items.length < 2 ^ 32
  | obj es => es.length < 2 ^ 32 && es.all fun p => p.1.utf8ByteSize < 2 ^ 32
  | _ => true

def narrow : Json → Bool
  | int n => -2 ^ 63 ≤ n && n < 2 ^ 64
  | _ => true

def plain : Json → Bool
  | float x => x.isFinite
  | j => j.narrow

def orderly : Json → Bool
  | obj es => decide (Table.Ascending es)
  | _ => true

theorem plain_float (x : Binary64) : (float x).all plain = x.isFinite := rfl

theorem narrow_of_plain {j : Json} (h : j.all plain = true) : j.all narrow = true := by
  induction j using tree_induction with
  | null | bool | float | str => rfl
  | int n => exact h
  | arr items ih =>
      rw [all_arr] at h ⊢
      exact ⟨rfl, fun j hj => ih j hj (h.2 j hj)⟩
  | obj es ih =>
      rw [all_obj] at h ⊢
      exact ⟨rfl, fun p hp => ih p hp (h.2 p hp)⟩

def entries : Json → List (String × Json)
  | obj es => es
  | _ => []

@[simp] theorem entries_obj (es : List (String × Json)) : (obj es).entries = es := rfl

theorem sortedItems_eq (items : List Json) : sortedItems items = items.map sorted := by
  induction items with
  | nil => rfl
  | cons j js ih => rw [sortedItems, ih, List.map_cons]

theorem sortedEntries_eq (es : List (String × Json)) :
    sortedEntries es = es.map fun p => (p.1, p.2.sorted) := by
  induction es with
  | nil => rfl
  | cons p es ih => rw [sortedEntries, ih, List.map_cons]

@[simp] theorem sorted_null : null.sorted = null := rfl

@[simp] theorem sorted_int (n : Int) : (int n).sorted = int n := rfl

@[simp] theorem sorted_str (s : String) : (str s).sorted = str s := rfl

theorem sorted_arr (items : List Json) : (arr items).sorted = arr (items.map sorted) := by
  rw [sorted, sortedItems_eq]

theorem sorted_obj (es : List (String × Json)) :
    (obj es).sorted = obj (Table.ofList (es.map fun p => (p.1, p.2.sorted))) := by
  rw [sorted, sortedEntries_eq]

theorem str_ne_null (s : String) : str s ≠ null := nofun

theorem obj_ne_null (es : List (String × Json)) : obj es ≠ null := nofun

theorem sorted_ne_null {j : Json} (h : j ≠ null) : j.sorted ≠ null := by
  cases j with
  | null => exact absurd rfl h
  | _ => exact nofun

theorem all_orderly_sorted (j : Json) : j.sorted.all orderly = true := by
  induction j using tree_induction with
  | null | bool | int | float | str => rfl
  | arr items ih =>
      rw [sorted_arr, all_arr]
      exact ⟨rfl, List.forall_mem_map.mpr ih⟩
  | obj es ih =>
      rw [sorted_obj, all_obj]
      refine ⟨decide_eq_true (Table.ascending_ofList _), fun p hp => ?_⟩
      obtain ⟨q, hq, rfl⟩ := List.mem_map.mp (Table.mem_of_mem_ofList hp)
      exact ih q hq

theorem sorted_of_orderly {j : Json} (h : j.all orderly = true) : j.sorted = j := by
  induction j using tree_induction with
  | null | bool | int | float | str => rfl
  | arr items ih =>
      rw [all_arr] at h
      rw [sorted_arr, List.map_congr_left fun j hj => ih j hj (h.2 j hj), List.map_id']
  | obj es ih =>
      rw [all_obj] at h
      have hsame : (es.map fun p => (p.1, p.2.sorted)) = es := by
        refine (List.map_congr_left fun p hp => ?_).trans (List.map_id' es)
        rw [ih p hp (h.2 p hp)]
      rw [sorted_obj, hsame, Table.ofList_of_ascending (of_decide_eq_true h.1)]

theorem depth_sorted {j : Json} {d : Nat} (h : j.depth ≤ d) : j.sorted.depth ≤ d := by
  induction j using tree_induction generalizing d with
  | null | bool | int | float | str => exact h
  | arr items ih =>
      obtain ⟨d, rfl⟩ : ∃ k, d = k + 1 := ⟨d - 1, by rw [depth] at h; omega⟩
      rw [depth_arr] at h
      rw [sorted_arr, depth_arr]
      exact List.forall_mem_map.mpr fun j hj => ih j hj (h j hj)
  | obj es ih =>
      obtain ⟨d, rfl⟩ : ∃ k, d = k + 1 := ⟨d - 1, by rw [depth] at h; omega⟩
      rw [depth_obj] at h
      rw [sorted_obj, depth_obj]
      intro p hp
      obtain ⟨q, hq, rfl⟩ := List.mem_map.mp (Table.mem_of_mem_ofList hp)
      exact ih q hq (h q hq)

theorem all_plain_sorted {j : Json} (h : j.all plain = true) : j.sorted.all plain = true := by
  induction j using tree_induction with
  | null | bool | int | float | str => exact h
  | arr items ih =>
      rw [all_arr] at h
      rw [sorted_arr, all_arr]
      exact ⟨rfl, List.forall_mem_map.mpr fun j hj => ih j hj (h.2 j hj)⟩
  | obj es ih =>
      rw [all_obj] at h
      rw [sorted_obj, all_obj]
      refine ⟨rfl, fun p hp => ?_⟩
      obtain ⟨q, hq, rfl⟩ := List.mem_map.mp (Table.mem_of_mem_ofList hp)
      exact ih q hq (h.2 q hq)

theorem find?_sorted {es : List (String × Json)} (h : (Table.keys es).Nodup) (key : String) :
    Table.find? (Table.ofList (es.map fun p => (p.1, p.2.sorted))) key =
      (Table.find? es key).map sorted := by
  rw [Table.find?_ofList, Table.find?_map]
  rwa [Table.keys, List.map_map]

theorem exists_sorted_obj {es : List (String × Json)} (h : (Table.keys es).Nodup) :
    ∃ ss, (obj es).sorted = obj ss ∧
      ∀ key, Table.find? ss key = (Table.find? es key).map sorted :=
  ⟨_, sorted_obj es, find?_sorted h⟩

end RuleSim.Json

namespace RuleSim.Pack

open Json (all all_arr all_obj)

theorem ofJsonItems_eq (items : List Json) : ofJsonItems items = items.map ofJson := by
  induction items with
  | nil => rfl
  | cons j js ih => rw [ofJsonItems, ih, List.map_cons]

theorem ofJsonEntries_eq (es : List (String × Json)) :
    ofJsonEntries es = es.map fun p => (str p.1, ofJson p.2) := by
  induction es with
  | nil => rfl
  | cons p es ih => rw [ofJsonEntries, ih, List.map_cons]

theorem depth_ofJson (j : Json) : (ofJson j).depth = j.depth := by
  induction j using Json.tree_induction with
  | null | bool | float | str => rfl
  | int n =>
      rw [ofJson]
      split_ifs <;> rfl
  | arr items ih =>
      rw [ofJson, ofJsonItems_eq, depth, Json.depth]
      induction items with
      | nil => rfl
      | cons j js ihs =>
          have hjs := ihs fun j hj => ih j (List.mem_cons_of_mem _ hj)
          rw [List.map_cons, depthItems, Json.depthItems, ih j List.mem_cons_self]
          omega
  | obj es ih =>
      rw [ofJson, ofJsonEntries_eq, depth, Json.depth]
      induction es with
      | nil => rfl
      | cons p es ihs =>
          have hes := ihs fun p hp => ih p (List.mem_cons_of_mem _ hp)
          have hkey : (str p.1).depth = 0 := rfl
          rw [List.map_cons, depthEntries, Json.depthEntries, ih p List.mem_cons_self, hkey]
          omega

theorem sizedItems_iff {items : List Pack} : SizedItems items ↔ ∀ p ∈ items, p.Sized := by
  induction items with
  | nil => simp [SizedItems]
  | cons p ps ih => simp [SizedItems, ih]

theorem sizedEntries_iff {es : List (Pack × Pack)} :
    SizedEntries es ↔ ∀ p ∈ es, p.1.Sized ∧ p.2.Sized := by
  induction es with
  | nil => simp [SizedEntries]
  | cons p es ih => simp [SizedEntries, ih, and_assoc]

theorem sized_ofJson {j : Json} (hs : j.all Json.small = true) (hn : j.all Json.narrow = true) :
    (ofJson j).Sized := by
  induction j using Json.tree_induction with
  | null | bool | float => trivial
  | int n =>
      simp only [all, Json.narrow, Bool.and_eq_true, decide_eq_true_eq] at hn
      rw [ofJson]
      split_ifs with h0
      · rw [Sized]
        omega
      · exact ⟨hn.1, Int.not_le.mp h0⟩
  | str s =>
      have hs : (Json.str s).small = true := hs
      exact of_decide_eq_true (p := s.utf8ByteSize < 2 ^ 32) hs
  | arr items ih =>
      rw [all_arr] at hs hn
      rw [ofJson, ofJsonItems_eq, Sized, List.length_map, sizedItems_iff, List.forall_mem_map]
      exact ⟨of_decide_eq_true hs.1, fun j hj => ih j hj (hs.2 j hj) (hn.2 j hj)⟩
  | obj es ih =>
      rw [all_obj] at hs hn
      simp only [Json.small, Bool.and_eq_true, decide_eq_true_eq, List.all_eq_true] at hs
      rw [ofJson, ofJsonEntries_eq, Sized, List.length_map, sizedEntries_iff, List.forall_mem_map]
      exact ⟨hs.1.1, fun p hp => ⟨hs.1.2 p hp, ih p hp (hs.2 p hp) (hn.2 p hp)⟩⟩

theorem itemsToJson?_ofJson {items : List Json}
    (h : ∀ j ∈ items, toJson? (ofJson j) = some j.sorted) :
    itemsToJson? (items.map ofJson) = some (items.map Json.sorted) := by
  induction items with
  | nil => rfl
  | cons j js ih =>
      rw [List.forall_mem_cons] at h
      rw [List.map_cons, itemsToJson?, h.1, ih h.2]
      rfl

theorem entriesToJson?_ofJson {es : List (String × Json)}
    (h : ∀ p ∈ es, toJson? (ofJson p.2) = some p.2.sorted) :
    entriesToJson? (es.map fun p => (str p.1, ofJson p.2)) =
      some (es.map fun p => (p.1, p.2.sorted)) := by
  induction es with
  | nil => rfl
  | cons p es ih =>
      rw [List.forall_mem_cons] at h
      rw [List.map_cons, entriesToJson?, h.1, ih h.2]
      rfl

/-- A tree of plain numbers comes back with its objects in order. -/
theorem toJson?_ofJson {j : Json} (h : j.all Json.plain = true) :
    toJson? (ofJson j) = some j.sorted := by
  induction j using Json.tree_induction with
  | null | bool | str => rfl
  | int n =>
      rw [ofJson]
      split_ifs with h0
      · rw [toJson?, Int.toNat_of_nonneg h0]
        rfl
      · rfl
  | float x =>
      have hx : x.isFinite = true := h
      rw [ofJson, toJson?, if_pos hx]
      rfl
  | arr items ih =>
      rw [all_arr] at h
      rw [ofJson, ofJsonItems_eq, toJson?, itemsToJson?_ofJson fun j hj => ih j hj (h.2 j hj),
        Json.sorted_arr]
      rfl
  | obj es ih =>
      rw [all_obj] at h
      have hentries := entriesToJson?_ofJson fun p hp => ih p hp (h.2 p hp)
      rw [ofJson, ofJsonEntries_eq, Json.sorted_obj]
      cases es with
      | nil => rfl
      | cons p es =>
          rw [List.map_cons] at hentries ⊢
          rw [toJson?, hentries]
          · rfl
          · exact fun _ _ _ heq => absurd (List.cons.inj heq).1 (by simp)

/-- A tree that is small enough and not nested too deep comes back from its bytes. -/
theorem document_ofBytes {j : Json} (hs : j.all Json.small = true) (hp : j.all Json.plain = true)
    (hd : j.depth ≤ maxDepth) :
    (ofBytes? (ofJson j).toBytes).bind toJson? = some j.sorted := by
  rw [ofBytes?_toBytes (sized_ofJson hs (Json.narrow_of_plain hp)), depth_ofJson, if_pos hd]
  exact toJson?_ofJson hp

end RuleSim.Pack
