import RuleSim.Proofs.Document.Record

namespace RuleSim.FieldType

open Json (Parsed Portable Returns portable_str portable_obj)

def Spelling.ofPartJson? : Json → Option (Option Spelling)
  | .null => some none
  | j => (Spelling.ofJson? j).map some

theorem Spelling.part?_eq (key : String) (es : List (String × Json)) :
    Spelling.part? key es = (Table.find? es key).elim (some none) Spelling.ofPartJson? := by
  refine Table.elim_of_scan rfl (fun k j t => ?_) es
  by_cases h : k = key
  · cases j <;> simp [part?, ofPartJson?, h]
  · cases j <;> simp [part?, h, Ne.symm h]

def spelling : FieldType → Spelling
  | list t => .tagged "list" (some t.spelling) none none
  | map k v => .tagged "map" none (some k.spelling) (some v.spelling)
  | t => .bare t.name

theorem ofPartJson?_some {j : Json} {s : Spelling} (h : Spelling.ofJson? j = some s) :
    Spelling.ofPartJson? j = some (some s) := by
  cases j with
  | null => cases h
  | _ => rw [Spelling.ofPartJson?, h, Option.map_some]; nofun

theorem ofJson?_toJson (t : FieldType) : Spelling.ofJson? t.toJson.sorted = some t.spelling := by
  induction t with
  | string | boolean | integer | float | entity => rfl
  | list t ih =>
      have hkeys : (Table.keys [("type", Json.str "list"), ("element", t.toJson)]).Nodup := by simp
      obtain ⟨es, hsorted, hfind⟩ := Json.exists_sorted_obj hkeys
      rw [toJson, hsorted, Spelling.ofJson?, hfind]
      simp [Spelling.part?_eq, hfind, Table.find?, ofPartJson?_some ih, spelling]
  | map k v ihk ihv =>
      have hkeys : (Table.keys [("type", Json.str "map"), ("key", k.toJson),
          ("value", v.toJson)]).Nodup := by simp
      obtain ⟨es, hsorted, hfind⟩ := Json.exists_sorted_obj hkeys
      rw [toJson, hsorted, Spelling.ofJson?, hfind]
      simp [Spelling.part?_eq, hfind, Table.find?, ofPartJson?_some ihk, ofPartJson?_some ihv,
        spelling]

theorem ofSpelling_spelling (t : FieldType) : ofSpelling t.spelling = .ok t := by
  induction t with
  | string | boolean | integer | float | entity => rfl
  | list t ih =>
      simp only [spelling, ofSpelling, ofPart, ih]
      rfl
  | map k v ihk ihv =>
      simp only [spelling, ofSpelling, ofPart, ihk, ihv]
      rfl

theorem ofJson_toJson (t : FieldType) : ofJson t.toJson.sorted = .ok t := by
  rw [ofJson, ofJson?_toJson]
  exact ofSpelling_spelling t

theorem toJson_ne_null (t : FieldType) : t.toJson ≠ .null := by cases t <;> exact nofun

theorem portable_named {name : String} {t : FieldType} (h : named name = .ok t) :
    Portable 1 t.toJson := by
  rw [named] at h
  cases ht : ofName? name with
  | none => simp [ht] at h
  | some t' =>
      simp only [ht, Except.ok.injEq] at h
      subst h
      rw [ofName?.eq_def] at ht
      split at ht <;> cases ht <;> exact ⟨rfl, by decide⟩

theorem portable_list {d : Nat} {t : FieldType} (h : Portable d t.toJson) :
    Portable (d + 1) (list t).toJson :=
  portable_obj (by simpa using h)

theorem portable_map {d : Nat} {k v : FieldType} (hk : Portable d k.toJson)
    (hv : Portable d v.toJson) : Portable (d + 1) (map k v).toJson :=
  portable_obj (by simpa using ⟨hk, hv⟩)

/-- What is read as a type from trees of a depth is written with at most one level more. -/
def Shallow (d : Nat) : Prop :=
  ∀ ⦃j : Json⦄ ⦃s : Spelling⦄ ⦃t : FieldType⦄, Parsed d j → Spelling.ofJson? j = some s →
    ofSpelling s = .ok t → Portable (d + 1) t.toJson

theorem Shallow.part {d : Nat} (h : Shallow d) {es : List (String × Json)}
    (hes : ∀ p ∈ es, Parsed d p.2) {key : String} {o : Option Spelling}
    (ho : Spelling.part? key es = some o) {default t : FieldType}
    (hd : Portable (d + 1) default.toJson) (ht : ofPart default o = .ok t) :
    Portable (d + 1) t.toJson := by
  cases o with
  | none =>
      obtain rfl := Except.ok.inj ht
      exact hd
  | some s =>
      rw [Spelling.part?_eq] at ho
      cases hj : Table.find? es key with
      | none => simp [hj] at ho
      | some j =>
          rw [hj, Option.elim_some, Spelling.ofPartJson?.eq_def] at ho
          split at ho
          · simp at ho
          · exact h (Parsed.of_find? hes hj) (by simpa using ho) ht

theorem shallow (d : Nat) : Shallow d := by
  induction d using Nat.strong_induction_on with
  | h d ih =>
      intro j s t hj hs ht
      cases j with
      | str name =>
          obtain rfl := Option.some.inj hs
          exact (portable_named ht).mono (by omega)
      | obj es =>
          obtain ⟨k, rfl, -, hes⟩ := hj.obj
          have hk := ih k k.lt_succ_self
          have hfloat : Portable (k + 1) float.toJson := portable_str _
          have hstring : Portable (k + 1) string.toJson := portable_str _
          rw [Spelling.ofJson?.eq_def] at hs
          simp only at hs
          split at hs
          · simp only [Option.pure_def, Option.bind_eq_bind, Option.bind_eq_some_iff,
              Option.some.injEq] at hs
            obtain ⟨element, he, key, hkey, value, hvalue, rfl⟩ := hs
            rw [ofSpelling] at ht
            split_ifs at ht
            · obtain ⟨t, helement, ht⟩ := bind_ok_iff.mp ht
              obtain rfl := pure_ok_iff.mp ht
              exact portable_list (hk.part hes he hfloat helement)
            · obtain ⟨u, hu, ht⟩ := bind_ok_iff.mp ht
              obtain ⟨v, hv, ht⟩ := bind_ok_iff.mp ht
              obtain rfl := pure_ok_iff.mp ht
              exact portable_map (hk.part hes hkey hstring hu) (hk.part hes hvalue hfloat hv)
            · exact (portable_named ht).mono (by omega)
          · cases hs
      | _ => cases hs

theorem fieldType_ok_iff {j : Json} {t : FieldType} :
    Read.fieldType j = .ok t ↔ ofJson j = .ok t := by
  rw [Read.fieldType]
  split <;> simp_all

theorem faithful (d : Nat) : Json.Faithful (Read.Reads Read.fieldType) toJson d := by
  intro j t hj ht
  refine ⟨?_, fieldType_ok_iff.mpr (ofJson_toJson t)⟩
  have ht := fieldType_ok_iff.mp ht
  rw [ofJson.eq_def] at ht
  split at ht
  · cases ht
  · next s hs => exact shallow d hj hs ht

end RuleSim.FieldType
