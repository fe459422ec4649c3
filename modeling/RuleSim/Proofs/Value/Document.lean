import RuleSim.Proofs.Json.Return
import RuleSim.Proofs.Value.Reference

namespace RuleSim.Value

open Json (all plain orderly narrow all_arr all_obj)

theorem toJsonItems_eq (vs : List Value) : toJsonItems vs = vs.map toJson := by
  induction vs with
  | nil => rfl
  | cons v vs ih => rw [toJsonItems, ih, List.map_cons]

theorem toJsonEntries_eq (es : List (String × Value)) :
    toJsonEntries es = es.map fun p => (p.1, p.2.toJson) := by
  induction es with
  | nil => rfl
  | cons p es ih => rw [toJsonEntries, ih, List.map_cons]

theorem ofJsonItems_eq (js : List Json) : ofJsonItems js = js.map ofJson := by
  induction js with
  | nil => rfl
  | cons j js ih => rw [ofJsonItems, ih, List.map_cons]

theorem ofJsonEntries_eq (es : List (String × Json)) :
    ofJsonEntries es = es.map fun p => (p.1, ofJson p.2) := by
  induction es with
  | nil => rfl
  | cons p es ih => rw [ofJsonEntries, ih, List.map_cons]

theorem ofEntries_cases (es : List (String × Value)) :
    ofEntries es = map es ∨
      ∃ v e, es = [(entityKey, v)] ∧ v.asEntity? = some e ∧ ofEntries es = entity e := by
  rw [ofEntries.eq_def]
  split
  · next k v =>
      split_ifs with hk
      · subst hk
        cases hv : v.asEntity? with
        | none => exact .inl rfl
        | some e => exact .inr ⟨v, e, rfl, hv, rfl⟩
      · exact .inl rfl
  · exact .inl rfl

inductive Stable : Value → Prop
  | null : Stable null
  | bool (b : Bool) : Stable (bool b)
  | int (n : Int64) : Stable (int n)
  | float (x : Binary64) : Stable (float x)
  | str (s : String) : Stable (str s)
  | entity (e : EntityId) (h : e.Exact) : Stable (entity e)
  | list (vs : List Value) (h : ∀ v ∈ vs, Stable v) : Stable (list vs)
  | map (es : List (String × Value)) (ha : Table.Ascending es) (hr : ofEntries es = map es)
      (h : ∀ p ∈ es, Stable p.2) : Stable (map es)

theorem asEntity?_exact {v : Value} {e : EntityId} (hv : v.Stable) (h : v.asEntity? = some e) :
    e.Exact := by
  cases hv with
  | null | bool | str | list | map => cases h
  | int n =>
      rw [asEntity?] at h
      split_ifs at h with h0
      obtain rfl := Option.some.inj h
      have hlt := n.toInt_lt
      apply EntityId.exact_of_lt
      rw [EntityId.toNat_ofNat (by omega)]
      omega
  | float x => exact EntityId.exact_of_float h
  | entity e' he =>
      obtain rfl := Option.some.inj h
      exact he

theorem ofInt_stable (n : Int) : Stable (ofInt n) := by
  rw [ofInt]
  split
  · exact .int _
  · exact .float _

theorem ofJson_stable {j : Json} (h : j.all orderly = true) : Stable (ofJson j) := by
  induction j using Json.tree_induction with
  | null => exact .null
  | bool b => exact .bool b
  | int n => exact ofInt_stable n
  | float x => exact .float x
  | str s => exact .str s
  | arr items ih =>
      rw [all_arr] at h
      rw [ofJson, ofJsonItems_eq]
      exact .list _ (List.forall_mem_map.mpr fun j hj => ih j hj (h.2 j hj))
  | obj es ih =>
      rw [all_obj] at h
      have hparts : ∀ p ∈ es.map fun p => (p.1, ofJson p.2), Stable p.2 :=
        List.forall_mem_map.mpr fun p hp => ih p hp (h.2 p hp)
      rw [ofJson, ofJsonEntries_eq]
      rcases ofEntries_cases (es.map fun p => (p.1, ofJson p.2)) with hr | ⟨v, e, hes, hv, hr⟩
      · rw [hr]
        exact .map _ ((of_decide_eq_true h.1 : Table.Ascending es).map fun _ j => ofJson j) hr
          hparts
      · rw [hr]
        rw [hes] at hparts
        exact .entity e (asEntity?_exact (hparts _ List.mem_cons_self) hv)

theorem toJson_orderly {v : Value} (h : v.Stable) : v.toJson.all orderly = true := by
  induction h with
  | null | bool | int | float | str | entity => rfl
  | list vs _ ih =>
      rw [toJson, toJsonItems_eq, all_arr]
      exact ⟨rfl, List.forall_mem_map.mpr ih⟩
  | map es ha _ _ ih =>
      rw [toJson, toJsonEntries_eq, all_obj]
      exact ⟨decide_eq_true (ha.map fun _ v => v.toJson), List.forall_mem_map.mpr ih⟩

theorem ofJson_toJson {v : Value} (h : v.Stable) : ofJson v.toJson = v := by
  induction h with
  | null | bool | float | str => rfl
  | int n =>
      rw [toJson, ofJson, ofInt, if_pos ⟨n.le_toInt, n.toInt_lt⟩, Int64.ofInt_toInt]
  | entity e he =>
      change ofEntries [(entityKey, ofInt e.toNat)] = entity e
      rw [ofEntries, if_pos rfl, he]
  | list vs _ ih =>
      rw [toJson, toJsonItems_eq, ofJson, ofJsonItems_eq, List.map_map]
      exact congrArg list ((List.map_congr_left ih).trans (List.map_id vs))
  | map es _ hr _ ih =>
      have hsame : (es.map fun p => (p.1, p.2.toJson)).map (fun p => (p.1, ofJson p.2)) = es := by
        rw [List.map_map]
        refine (List.map_congr_left fun p hp => ?_).trans (List.map_id es)
        exact Prod.ext rfl (ih p hp)
      rw [toJson, toJsonEntries_eq, ofJson, ofJsonEntries_eq, hsame, hr]

theorem ofJson_sorted {v : Value} (h : v.Stable) : ofJson v.toJson.sorted = v := by
  rw [Json.sorted_of_orderly (toJson_orderly h), ofJson_toJson h]

theorem entity_plain (e : EntityId) : (entity e).toJson.all plain = true := by
  have hlt := e.toNat_lt
  rw [toJson, all_obj]
  refine ⟨rfl, fun p hp => ?_⟩
  rw [List.mem_singleton] at hp
  subst p
  simp only [all, plain, narrow, Bool.and_eq_true, decide_eq_true_eq]
  omega

/-- A value is written with no more nesting than it is read from. -/
theorem toJson_ofJson_plain {j : Json} {d : Nat} (h : j.all plain = true) (hd : j.depth ≤ d) :
    (ofJson j).toJson.all plain = true ∧ (ofJson j).toJson.depth ≤ d := by
  induction j using Json.tree_induction generalizing d with
  | null | bool | str => exact ⟨rfl, Nat.zero_le _⟩
  | int n =>
      rw [ofJson, ofInt]
      split_ifs with hn
      · refine ⟨?_, Nat.zero_le _⟩
        rw [toJson, Int64.toInt_ofInt_of_le hn.1 hn.2]
        exact h
      · refine ⟨?_, Nat.zero_le _⟩
        have hn' : -2 ^ 63 ≤ n ∧ n < 2 ^ 64 := by
          simpa [all, plain, narrow] using h
        obtain ⟨k, rfl⟩ := Int.eq_ofNat_of_zero_le (a := n) (by omega)
        have hfinite : (Binary64.ofInt k).isFinite = true := Binary64.isFinite_ofInt (by omega)
        rwa [toJson, Json.plain_float]
  | float x => exact ⟨h, Nat.zero_le _⟩
  | arr items ih =>
      obtain ⟨d, rfl⟩ : ∃ k, d = k + 1 := ⟨d - 1, by rw [Json.depth] at hd; omega⟩
      rw [all_arr] at h
      rw [Json.depth_arr] at hd
      rw [ofJson, ofJsonItems_eq, toJson, toJsonItems_eq, all_arr, Json.depth_arr, List.map_map,
        List.forall_mem_map, List.forall_mem_map]
      exact ⟨⟨rfl, fun j hj => (ih j hj (h.2 j hj) (hd j hj)).1⟩,
        fun j hj => (ih j hj (h.2 j hj) (hd j hj)).2⟩
  | obj es ih =>
      obtain ⟨d, rfl⟩ : ∃ k, d = k + 1 := ⟨d - 1, by rw [Json.depth] at hd; omega⟩
      rw [all_obj] at h
      rw [Json.depth_obj] at hd
      rw [ofJson, ofJsonEntries_eq]
      rcases ofEntries_cases (es.map fun p => (p.1, ofJson p.2)) with hr | ⟨v, e, -, -, hr⟩
      · rw [hr, toJson, toJsonEntries_eq, all_obj, Json.depth_obj, List.map_map,
          List.forall_mem_map, List.forall_mem_map]
        exact ⟨⟨rfl, fun p hp => (ih p hp (h.2 p hp) (hd p hp)).1⟩,
          fun p hp => (ih p hp (h.2 p hp) (hd p hp)).2⟩
      · rw [hr]
        refine ⟨entity_plain e, ?_⟩
        rw [toJson, Json.depth_obj]
        exact fun p hp => by
          rw [List.mem_singleton] at hp
          subst p
          exact Nat.zero_le _

theorem toJson_ofJson_ne_null {j : Json} (h : j ≠ .null) : (ofJson j).toJson ≠ .null := by
  cases j with
  | null => exact absurd rfl h
  | bool | float | str | arr =>
      intro hnull
      cases hnull
  | int n =>
      rw [ofJson, ofInt]
      split
      all_goals
        intro hnull
        cases hnull
  | obj es =>
      rw [ofJson]
      rcases ofEntries_cases (ofJsonEntries es) with hr | ⟨v, e, -, -, hr⟩
      all_goals
        rw [hr]
        intro hnull
        cases hnull

theorem ofJson_faithful (d : Nat) : Json.Faithful (fun j v => ofJson j = v) toJson d := by
  rintro j _ hj rfl
  obtain ⟨hplain, hdepth⟩ := toJson_ofJson_plain hj.plain hj.depth
  exact ⟨⟨hplain, Nat.le_succ_of_le hdepth⟩, ofJson_sorted (ofJson_stable hj.orderly)⟩

end RuleSim.Value
