import RuleSim.Document.Writing
import RuleSim.Proofs.Document.FieldType

namespace RuleSim

open Json (Parsed Portable Returns Faithful Items portable_str portable_obj portable_arr
  returns_items returns_entries)
open Read

variable {d : Nat}

section Optional

variable {key : String} {items : List Json}

@[simp] theorem find?_unlessNone (k : String) :
    Table.find? (unlessNone key items) k =
      if k = key ∧ items ≠ [] then some (.arr items) else none := by
  cases items <;> simp [unlessNone, Table.find?]

theorem keys_unlessNone : (Table.keys (unlessNone key items)).Sublist [key] := by
  cases items <;> simp [unlessNone]

theorem portable_unlessNone (h : Portable d (.arr items)) :
    ∀ p ∈ unlessNone key items, Portable d p.2 := by
  cases items with
  | nil => exact nofun
  | cons j js => simpa [unlessNone] using h

end Optional

namespace Read

theorem returns_text (s : String) : Returns (Reads text) .str d s := ⟨portable_str s, rfl⟩

theorem text_faithful (d : Nat) : Faithful (Reads text) .str d := fun _ s _ _ => returns_text s

theorem whole_faithful (d : Nat) : Faithful (Reads whole) natJson d := by
  intro j n _ hn
  rw [Reads, whole.eq_def] at hn
  split at hn
  · next i =>
      split_ifs at hn with hi
      obtain rfl := Except.ok.inj hn
      obtain ⟨k, rfl⟩ := Int.eq_ofNat_of_zero_le hi.1
      refine ⟨Json.portable_int (by omega) hi.2, ?_⟩
      rw [natJson, Json.sorted_int, Reads, whole, Int.toNat_natCast, if_pos hi, Int.toNat_natCast]
  · cases hn

theorem smallInt_faithful (d : Nat) : Faithful (Reads smallInt) .int d := by
  intro j n _ hn
  rw [Reads, smallInt.eq_def] at hn
  split at hn
  · next i =>
      split_ifs at hn with hi
      obtain rfl := Except.ok.inj hn
      refine ⟨Json.portable_int (by omega) (by omega), ?_⟩
      rw [Json.sorted_int, Reads, smallInt, if_pos hi]
  · cases hn

theorem tree_faithful (d : Nat) : Faithful (Reads tree) id d := by
  rintro j _ hj ⟨⟩
  exact ⟨hj.portable.mono d.le_succ, congrArg Except.ok (Json.sorted_of_orderly hj.orderly)⟩

theorem value_faithful (d : Nat) : Faithful (Reads value) Value.toJson d := by
  rintro j _ hj ⟨⟩
  obtain ⟨hportable, hback⟩ := Value.ofJson_faithful d hj rfl
  exact ⟨hportable, congrArg Except.ok hback⟩

theorem expr_faithful (d : Nat) : Faithful (Reads expr) Expr.toJson d := by
  intro j e hj he
  obtain ⟨hportable, hback⟩ := Expr.faithful d hj (ofOption_ok_iff.mp he) false
  exact ⟨hportable, ofOption_ok_iff.mpr hback⟩

theorem action_faithful (d : Nat) :
    Faithful (Reads (ofOption (Action.ofJson? false))) Action.toJson d := by
  intro j a hj ha
  obtain ⟨hportable, hback⟩ := Action.faithful d hj (ofOption_ok_iff.mp ha) false
  exact ⟨hportable, ofOption_ok_iff.mpr hback⟩

variable {α : Type} {f : Json → Read α} {write : α → Json}

theorem list_faithful (h : ∀ k, Faithful (Reads f) write k) (d : Nat) :
    Faithful (Reads (list f)) (fun as => .arr (as.map write)) d := by
  intro j as hj has
  obtain ⟨hportable, hback⟩ := Faithful.items (fun k _ => h k) hj (list_ok_iff.mp has)
  exact ⟨hportable, list_ok_iff.mpr hback⟩

theorem fields_faithful (h : ∀ k, Faithful (Reads f) write k) (d : Nat) :
    Faithful (Reads (fields f)) (fun fs => .obj (fs.map fun p => (p.1, write p.2))) d := by
  intro j fs hj hfs
  obtain ⟨hportable, hback⟩ := Faithful.entries (fun k _ => h k) hj (fields_ok_iff.mp hfs)
  exact ⟨hportable, fields_ok_iff.mpr hback⟩

theorem returns_nil (f : Json → Read α) (write : α → Json) :
    Returns (Reads (list f)) (fun as => .arr (as.map write)) (d + 1) [] :=
  ⟨portable_arr nofun, rfl⟩

theorem returns_noFields (f : Json → Read α) (write : α → Json) :
    Returns (Reads (fields f)) (fun fs => .obj (fs.map fun p => (p.1, write p.2))) (d + 1) [] :=
  ⟨portable_obj nofun, rfl⟩

/-- A map that is left out if it is empty. -/
theorem unlessEmpty_held {es parts : Entries} {key : String} {fs : Fields α}
    (hget : Table.find? es key =
      (if parts = [] then none else some (Json.obj parts)).map Json.sorted)
    (hparts : parts = fs.map fun p => (p.1, write p.2))
    (h : Returns (Reads (fields f)) (fun fs => .obj (fs.map fun p => (p.1, write p.2))) d fs) :
    defaulting es key [] (fields f) = .ok fs := by
  rw [hparts] at hget
  cases fs with
  | nil => rw [defaulting, hget]; rfl
  | cons p fs => exact defaulting_held (by simpa using hget) h

/-- A list that is left out if it is empty. -/
theorem unlessNone_held {es : Entries} {key : String} {as : List α}
    (hget : Table.find? es key =
      (if as.map write = [] then none else some (Json.arr (as.map write))).map Json.sorted)
    (h : Returns (Reads (list f)) (fun as => .arr (as.map write)) d as) :
    defaulting es key [] (list f) = .ok as := by
  cases as with
  | nil => rw [defaulting, hget]; rfl
  | cons a as => exact defaulting_held (by simpa using hget) h

end Read

namespace FieldDecl

theorem keys_nodup (f : FieldDecl) : (Table.keys f.toJson.entries).Nodup := by
  have hkeys : ["name", "type", "default"].Nodup := by decide
  exact hkeys.sublist (by simpa [toJson] using keys_optional)

theorem stays {f : FieldDecl} (ht : Returns (Reads fieldType) FieldType.toJson d f.type)
    (hv : ∀ v ∈ f.default, Returns (Reads value) Value.toJson d v ∧ v.toJson ≠ .null) :
    Returns (Reads FieldDecl.ofJson) toJson (d + 1) f := by
  refine returns_record rfl f.keys_nodup ?_ fun es hes => ?_
  · simp only [List.cons_append, List.nil_append, List.forall_mem_cons]
    exact ⟨portable_str _, ht.portable, portable_optional fun v hv' => (hv v hv').1.portable⟩
  · have hname : present es "name" text = .ok (some f.name) :=
      present_held (d := d) (by simp [hes, Table.find?]) (returns_text _)
    have htype : present es "type" fieldType = .ok (some f.type) :=
      present_held (by simp [hes, Table.find?]) ht
    have hdefault : nullable es "default" value = .ok f.default :=
      nullable_held (by simp [hes, Table.find?]) hv
    simp only [FieldDecl.ofJson, record, ok_bind, hname, htype, hdefault, need]
    rfl

theorem faithful (d : Nat) : Faithful (Reads FieldDecl.ofJson) toJson d := by
  intro j f hj hf
  simp only [Reads, FieldDecl.ofJson, bind_ok_iff, need_ok_iff, pure_ok_iff] at hf
  obtain ⟨es, hes, default, hdefault, name, -, type, htype, name, rfl, type, rfl, rfl⟩ := hf
  obtain ⟨k, rfl, hes⟩ := record_parsed hj hes
  refine stays (present_stays hes (FieldType.faithful k) htype) ?_
  refine nullable_stays hes (value_faithful k) ?_ hdefault
  rintro j _ hne ⟨⟩
  exact Value.toJson_ofJson_ne_null hne

end FieldDecl

namespace ComponentDecl

theorem keys_nodup (c : ComponentDecl) : (Table.keys c.toJson.entries).Nodup := by
  have hkeys : ["id", "name", "fields"].Nodup := by decide
  exact hkeys.sublist (by simpa [toJson] using keys_optional.append (.refl ["name", "fields"]))

theorem stays {c : ComponentDecl}
    (hi : ∀ n ∈ c.id, Returns (Reads whole) natJson d n ∧ natJson n ≠ .null)
    (hf : Returns (Reads (list FieldDecl.ofJson)) (fun fs => .arr (fs.map FieldDecl.toJson)) d
      c.fields) :
    Returns (Reads ComponentDecl.ofJson) toJson (d + 1) c := by
  refine returns_record rfl c.keys_nodup ?_ fun es hes => ?_
  · simp only [List.forall_mem_append, List.forall_mem_cons]
    exact ⟨portable_optional fun n hn => (hi n hn).1.portable, portable_str _, hf.portable,
      List.forall_mem_nil _⟩
  · have hid : nullable es "id" whole = .ok c.id :=
      nullable_held (by simp [hes, Table.find?, Table.find?_append]) hi
    have hname : present es "name" text = .ok (some c.name) :=
      present_held (d := d) (by simp [hes, Table.find?, Table.find?_append]) (returns_text _)
    have hfields : present es "fields" (list FieldDecl.ofJson) = .ok (some c.fields) :=
      present_held (by simp [hes, Table.find?, Table.find?_append]) hf
    simp only [ComponentDecl.ofJson, record, ok_bind, hid, hname, hfields, need]
    rfl

theorem faithful (d : Nat) : Faithful (Reads ComponentDecl.ofJson) toJson d := by
  intro j c hj hc
  simp only [Reads, ComponentDecl.ofJson, bind_ok_iff, need_ok_iff, pure_ok_iff] at hc
  obtain ⟨es, hes, fields, hfields, id, hid, name, -, name, rfl, fields, rfl, rfl⟩ := hc
  obtain ⟨k, rfl, hes⟩ := record_parsed hj hes
  exact stays (nullable_stays hes (whole_faithful k) (fun _ _ _ _ => nofun) hid)
    (present_stays hes (list_faithful FieldDecl.faithful k) hfields)

end ComponentDecl

namespace Param

def typeOfJson : Json → Read FieldType := ofOption fun j => (FieldType.ofJson j).toOption

theorem typeOfJson_ok_iff {j : Json} {t : FieldType} :
    typeOfJson j = .ok t ↔ fieldType j = .ok t := by
  rw [typeOfJson, ofOption_ok_iff, FieldType.fieldType_ok_iff]
  cases FieldType.ofJson j <;> simp [Except.toOption]

theorem type_faithful (d : Nat) : Faithful (Reads typeOfJson) FieldType.toJson d := by
  intro j t hj ht
  obtain ⟨hportable, hback⟩ := FieldType.faithful d hj (typeOfJson_ok_iff.mp ht)
  exact ⟨hportable, typeOfJson_ok_iff.mpr hback⟩

theorem ofJson_obj (es : Entries) :
    Param.ofJson (.obj es) = do
      let name ← need (Json.strAt? es "name")
      let type ← nullable es "type" typeOfJson
      return { name, type } := by
  rw [Param.ofJson, nullable]
  cases need (Json.strAt? es "name") with
  | error e => rfl
  | ok name =>
      simp only [ok_bind]
      split
      · rfl
      · rfl
      · next j hne hj =>
          rw [typeOfJson, ofOption]
          cases FieldType.ofJson j <;> rfl

theorem keys_nodup (p : Param) : (Table.keys p.toJson.entries).Nodup := by
  have hkeys : ["name", "type"].Nodup := by decide
  exact hkeys.sublist (by simpa [toJson] using keys_optional)

theorem stays {p : Param}
    (ht : ∀ t ∈ p.type, Returns (Reads typeOfJson) FieldType.toJson d t ∧ t.toJson ≠ .null) :
    Returns (Reads Param.ofJson) toJson (d + 1) p := by
  refine returns_record rfl p.keys_nodup ?_ fun es hes => ?_
  · simp only [List.forall_mem_cons]
    exact ⟨portable_str _, portable_optional fun t h => (ht t h).1.portable⟩
  · have hname : Json.strAt? es "name" = some p.name := by
      simp [Json.strAt?, hes, Table.find?, Json.str?]
    have htype : nullable es "type" typeOfJson = .ok p.type :=
      nullable_held (by simp [hes, Table.find?]) ht
    simp only [ofJson_obj, hname, htype, need, ok_bind]
    rfl

theorem faithful (d : Nat) : Faithful (Reads Param.ofJson) toJson d := by
  intro j p hj hp
  cases j with
  | str name =>
      obtain rfl := Except.ok.inj hp
      exact stays (d := d) (p := { name }) nofun
  | obj es =>
      simp only [Reads, ofJson_obj, bind_ok_iff, pure_ok_iff] at hp
      obtain ⟨name, -, type, htype, rfl⟩ := hp
      obtain ⟨k, rfl, -, hes⟩ := hj.obj
      exact stays (nullable_stays hes (type_faithful k) (fun _ t _ _ => t.toJson_ne_null) htype)
  | _ => cases hp

end Param

abbrev StaysParams (d : Nat) (ps : List Param) : Prop :=
  Returns (Reads (list Param.ofJson)) (fun ps => .arr (ps.map Param.toJson)) d ps

abbrev StaysType (d : Nat) (o : Option FieldType) : Prop :=
  ∀ t ∈ o, Returns (Reads fieldType) FieldType.toJson d t ∧ t.toJson ≠ .null

namespace BoundFunction

theorem keys_nodup (f : BoundFunction) : (Table.keys f.toJson.entries).Nodup := by
  have hkeys : ["params", "return_type", "body", "source"].Nodup := by decide
  refine hkeys.sublist ?_
  simpa [toJson] using keys_optional.append (List.Sublist.cons_cons "body" keys_optional)

theorem stays {f : BoundFunction} (hp : StaysParams d f.params) (hr : StaysType d f.returnType)
    (hb : Returns (Reads expr) Expr.toJson d f.body) :
    Returns (Reads BoundFunction.ofJson) toJson (d + 1) f := by
  refine returns_record rfl f.keys_nodup ?_ fun es hes => ?_
  · simp only [List.cons_append, List.forall_mem_cons, List.forall_mem_append]
    exact ⟨hp.portable, portable_optional fun t ht => (hr t ht).1.portable, hb.portable,
      portable_optional fun s _ => portable_str s⟩
  · have hbody : present es "body" expr = .ok (some f.body) :=
      present_held (by simp [hes, Table.find?, Table.find?_append]) hb
    have hparams : defaulting es "params" [] (list Param.ofJson) = .ok f.params :=
      defaulting_held (by simp [hes, Table.find?]) hp
    have hreturn : nullable es "return_type" fieldType = .ok f.returnType :=
      nullable_held (by simp [hes, Table.find?, Table.find?_append]) hr
    have hsource : nullable es "source" text = .ok f.source :=
      nullable_held (by simp [hes, Table.find?, Table.find?_append])
        fun s _ => ⟨returns_text (d := d) s, Json.str_ne_null s⟩
    simp only [BoundFunction.ofJson, recordBy, ok_bind, hbody, hparams, hreturn, hsource, need]
    rfl

theorem faithful (d : Nat) : Faithful (Reads BoundFunction.ofJson) toJson d := by
  intro j f hj hf
  obtain ⟨k, es, rfl, hes, hf⟩ := recordBy_parsed hj hf
  simp only [bind_ok_iff, need_ok_iff, pure_ok_iff] at hf
  obtain ⟨body, hbody, params, hparams, returnType, hreturn, source, hsource, body, rfl, rfl⟩ := hf
  exact stays (defaulting_stays hes (list_faithful Param.faithful k) (returns_nil ..) hparams)
    (nullable_stays hes (FieldType.faithful k) (fun _ t _ _ => t.toJson_ne_null) hreturn)
    (present_stays hes (expr_faithful k) hbody)

end BoundFunction

namespace FunctionDecl

theorem keys_nodup (f : FunctionDecl) : (Table.keys f.toJson.entries).Nodup := by
  have hkeys : ["id", "name", "params", "return_type", "body"].Nodup := by decide
  refine hkeys.sublist ?_
  simpa [toJson] using keys_optional.append
    (((keys_optional.append (.refl ["body"])).cons_cons "params").cons_cons "name")

theorem stays {f : FunctionDecl}
    (hi : ∀ n ∈ f.id, Returns (Reads whole) natJson d n ∧ natJson n ≠ .null)
    (hp : StaysParams d f.params) (hr : StaysType d f.returnType)
    (hb : Returns (Reads expr) Expr.toJson d f.body) :
    Returns (Reads FunctionDecl.ofJson) toJson (d + 1) f := by
  refine returns_record rfl f.keys_nodup ?_ fun es hes => ?_
  · simp only [List.forall_mem_cons, List.forall_mem_append]
    exact ⟨⟨portable_optional fun n hn => (hi n hn).1.portable, portable_str _, hp.portable,
      portable_optional fun t ht => (hr t ht).1.portable⟩, hb.portable,
      List.forall_mem_nil _⟩
  · have hid : nullable es "id" whole = .ok f.id :=
      nullable_held (by simp [hes, Table.find?, Table.find?_append]) hi
    have hname : present es "name" text = .ok (some f.name) :=
      present_held (d := d) (by simp [hes, Table.find?, Table.find?_append]) (returns_text _)
    have hparams : defaulting es "params" [] (list Param.ofJson) = .ok f.params :=
      defaulting_held (by simp [hes, Table.find?, Table.find?_append]) hp
    have hreturn : nullable es "return_type" fieldType = .ok f.returnType :=
      nullable_held (by simp [hes, Table.find?, Table.find?_append]) hr
    have hbody : present es "body" expr = .ok (some f.body) :=
      present_held (by simp [hes, Table.find?, Table.find?_append]) hb
    simp only [FunctionDecl.ofJson, record, ok_bind, hid, hname, hparams, hreturn, hbody, need]
    rfl

theorem faithful (d : Nat) : Faithful (Reads FunctionDecl.ofJson) toJson d := by
  intro j f hj hf
  simp only [Reads, FunctionDecl.ofJson, bind_ok_iff, need_ok_iff, pure_ok_iff] at hf
  obtain ⟨es, hes, body, hbody, id, hid, name, -, params, hparams, returnType, hreturn, name, rfl,
    body, rfl, rfl⟩ := hf
  obtain ⟨k, rfl, hes⟩ := record_parsed hj hes
  exact stays (nullable_stays hes (whole_faithful k) (fun _ _ _ _ => nofun) hid)
    (defaulting_stays hes (list_faithful Param.faithful k) (returns_nil ..) hparams)
    (nullable_stays hes (FieldType.faithful k) (fun _ t _ _ => t.toJson_ne_null) hreturn)
    (present_stays hes (expr_faithful k) hbody)

end FunctionDecl

namespace Trigger

theorem keys_nodup (t : Trigger) : (Table.keys t.toJson.entries).Nodup := by
  have hkeys : ["type", "event", "bindings"].Nodup := by decide
  exact hkeys.sublist (by simpa [toJson] using keys_optional.append keys_unlessEmpty)

theorem stays {t : Trigger}
    (hb : Returns (Reads (fields text)) (fun fs => .obj (fs.map fun p => (p.1, .str p.2))) d
      t.bindings) :
    Returns (Reads Trigger.ofJson) toJson (d + 1) t := by
  refine returns_record rfl t.keys_nodup ?_ fun es hes => ?_
  · simp only [List.cons_append, List.forall_mem_cons, List.forall_mem_append]
    exact ⟨portable_str _, portable_optional fun s _ => portable_str s,
      portable_unlessEmpty hb.portable⟩
  · have hkind : present es "type" text = .ok (some t.kind) :=
      present_held (d := d) (by simp [hes, Table.find?]) (returns_text _)
    have hevent : nullable es "event" text = .ok t.event :=
      nullable_held (by simp [hes, Table.find?, Table.find?_append])
        fun s _ => ⟨returns_text (d := d) s, Json.str_ne_null s⟩
    have hbindings : defaulting es "bindings" [] (fields text) = .ok t.bindings :=
      unlessEmpty_held (by simp [hes, Table.find?, Table.find?_append]) rfl hb
    simp only [Trigger.ofJson, record, ok_bind, hkind, hevent, hbindings, need]
    rfl

theorem faithful (d : Nat) : Faithful (Reads Trigger.ofJson) toJson d := by
  intro j t hj ht
  simp only [Reads, Trigger.ofJson, bind_ok_iff, need_ok_iff, pure_ok_iff] at ht
  obtain ⟨es, hes, bindings, hbindings, event, -, kind, -, kind, rfl, rfl⟩ := ht
  obtain ⟨k, rfl, hes⟩ := record_parsed hj hes
  exact stays
    (defaulting_stays hes (fields_faithful text_faithful k) (returns_noFields ..) hbindings)

end Trigger

theorem filter_stays {components : List String}
    (h : Returns (Reads (list text)) (fun cs => .arr (cs.map .str)) d components) :
    Returns (Reads filterOfJson) filterJson (d + 1) components := by
  refine returns_record rfl (by simp) (by simpa using h.portable) fun es hes => ?_
  have hcomponents : defaulting es "components" [] (list text) = .ok components :=
    defaulting_held (by simp [hes, Table.find?]) h
  rw [filterOfJson, record, ok_bind, hcomponents]

theorem filter_faithful (d : Nat) : Faithful (Reads filterOfJson) filterJson d := by
  intro j components hj hc
  obtain ⟨es, hes, hc⟩ := bind_ok_iff.mp hc
  obtain ⟨k, rfl, hes⟩ := record_parsed hj hes
  exact filter_stays (defaulting_stays hes (list_faithful text_faithful k) (returns_nil ..) hc)

namespace RuleDecl

structure StaysParts (d : Nat) (r : RuleDecl) : Prop where
  id : ∀ n ∈ r.id, Returns (Reads whole) natJson d n ∧ natJson n ≠ .null
  trigger : Returns (Reads Trigger.ofJson) Trigger.toJson d r.trigger
  filter : ∀ cs ∈ r.filter, Returns (Reads filterOfJson) filterJson d cs ∧ filterJson cs ≠ .null
  condition : ∀ e ∈ r.condition, Returns (Reads expr) Expr.toJson d e ∧ e.toJson ≠ .null
  priority : Returns (Reads smallInt) .int d r.priority
  actions : Returns (Reads (list (ofOption (Action.ofJson? false))))
    (fun as => .arr (as.map Action.toJson)) d r.actions

theorem keys_nodup (r : RuleDecl) : (Table.keys r.toJson.entries).Nodup := by
  have hkeys : ["id", "name", "trigger", "filter", "condition", "priority", "actions"].Nodup := by
    decide
  refine hkeys.sublist ?_
  simpa [toJson] using keys_optional.append (keys_optional.append ((keys_optional.append
    (keys_optional.append (.refl ["priority", "actions"]))).cons_cons "trigger"))

theorem StaysParts.stays {r : RuleDecl} (h : r.StaysParts d) :
    Returns (Reads RuleDecl.ofJson) toJson (d + 1) r := by
  refine returns_record rfl r.keys_nodup ?_ fun es hes => ?_
  · simp only [List.forall_mem_cons, List.forall_mem_append]
    refine ⟨⟨⟨⟨?_, ?_⟩, h.trigger.portable, ?_⟩, ?_⟩, h.priority.portable, ?_, List.forall_mem_nil _⟩
    · exact portable_optional fun n hn => (h.id n hn).1.portable
    · exact portable_optional fun s _ => portable_str s
    · exact portable_optional fun cs hcs => (h.filter cs hcs).1.portable
    · exact portable_optional fun e he => (h.condition e he).1.portable
    · rw [Action.toJsonItems_eq]
      exact h.actions.portable
  · have hactions : present es "actions" (list (ofOption (Action.ofJson? false))) =
        .ok (some r.actions) :=
      present_held (by simp [hes, Table.find?, Table.find?_append, Action.toJsonItems_eq]) h.actions
    have hcondition : nullable es "condition" expr = .ok r.condition :=
      nullable_held (by simp [hes, Table.find?, Table.find?_append]) h.condition
    have hfilter : nullable es "filter" filterOfJson = .ok r.filter :=
      nullable_held (by simp [hes, Table.find?, Table.find?_append]) h.filter
    have hid : nullable es "id" whole = .ok r.id :=
      nullable_held (by simp [hes, Table.find?, Table.find?_append]) h.id
    have hname : nullable es "name" text = .ok r.name :=
      nullable_held (by simp [hes, Table.find?, Table.find?_append])
        fun s _ => ⟨returns_text (d := d) s, Json.str_ne_null s⟩
    have hpriority : defaulting es "priority" 0 smallInt = .ok r.priority :=
      defaulting_held (by simp [hes, Table.find?, Table.find?_append]) h.priority
    have htrigger : present es "trigger" Trigger.ofJson = .ok (some r.trigger) :=
      present_held (by simp [hes, Table.find?, Table.find?_append]) h.trigger
    simp only [RuleDecl.ofJson, record, ok_bind, hactions, hcondition, hfilter, hid, hname,
      hpriority, htrigger, need]
    rfl

theorem faithful (d : Nat) : Faithful (Reads RuleDecl.ofJson) toJson d := by
  intro j r hj hr
  simp only [Reads, RuleDecl.ofJson, bind_ok_iff, need_ok_iff, pure_ok_iff] at hr
  obtain ⟨es, hes, actions, hactions, condition, hcondition, filter, hfilter, id, hid, name, -,
    priority, hpriority, trigger, htrigger, trigger, rfl, actions, rfl, rfl⟩ := hr
  obtain ⟨k, rfl, hes⟩ := record_parsed hj hes
  exact StaysParts.stays {
    id := nullable_stays hes (whole_faithful k) (fun _ _ _ _ => nofun) hid
    trigger := present_stays hes (Trigger.faithful k) htrigger
    filter := nullable_stays hes (filter_faithful k) (fun _ _ _ _ => nofun) hfilter
    condition := nullable_stays hes (expr_faithful k) (fun _ e _ _ => e.toJson_ne_null) hcondition
    priority := defaulting_stays hes (smallInt_faithful k)
      ⟨Json.portable_int (by decide) (by decide), rfl⟩ hpriority
    actions := present_stays hes (list_faithful action_faithful k) hactions }

end RuleDecl

abbrev valuesJson (fs : Fields Value) : Json := .obj (fs.map fun p => (p.1, p.2.toJson))

abbrev componentsJson (cs : Fields (Fields Value)) : Json :=
  .obj (cs.map fun p => (p.1, valuesJson p.2))

namespace EntityDecl

theorem keys_nodup (e : EntityDecl) : (Table.keys e.toJson.entries).Nodup := by
  have hkeys : ["id", "name", "components", "bound_functions"].Nodup := by decide
  refine hkeys.sublist ?_
  simpa [toJson] using
    keys_optional.append (keys_optional.append (keys_unlessEmpty.cons_cons "components"))

theorem stays {e : EntityDecl}
    (hi : ∀ n ∈ e.id, Returns (Reads whole) natJson d n ∧ natJson n ≠ .null)
    (hc : Returns (Reads (fields (fields value))) componentsJson d e.components)
    (hf : Returns (Reads (fields BoundFunction.ofJson))
      (fun fs => .obj (fs.map fun p => (p.1, p.2.toJson))) d e.boundFunctions) :
    Returns (Reads EntityDecl.ofJson) toJson (d + 1) e := by
  refine returns_record rfl e.keys_nodup ?_ fun es hes => ?_
  · simp only [List.forall_mem_cons, List.forall_mem_append, Value.toJsonEntries_eq]
    exact ⟨⟨portable_optional fun n hn => (hi n hn).1.portable,
      portable_optional fun s _ => portable_str s⟩, hc.portable, portable_unlessEmpty hf.portable⟩
  · have hid : nullable es "id" whole = .ok e.id :=
      nullable_held (by simp [hes, Table.find?, Table.find?_append]) hi
    have hname : nullable es "name" text = .ok e.name :=
      nullable_held (by simp [hes, Table.find?, Table.find?_append])
        fun s _ => ⟨returns_text (d := d) s, Json.str_ne_null s⟩
    have hcomponents : defaulting es "components" [] (fields (fields value)) = .ok e.components :=
      defaulting_held (by simp [hes, Table.find?, Table.find?_append, Value.toJsonEntries_eq]) hc
    have hfunctions : defaulting es "bound_functions" [] (fields BoundFunction.ofJson) =
        .ok e.boundFunctions :=
      unlessEmpty_held (by simp [hes, Table.find?, Table.find?_append]) rfl hf
    simp only [EntityDecl.ofJson, recordBy, ok_bind, hid, hname, hcomponents, hfunctions]
    rfl

theorem faithful (d : Nat) : Faithful (Reads EntityDecl.ofJson) toJson d := by
  intro j e hj he
  obtain ⟨k, es, rfl, hes, he⟩ := recordBy_parsed hj he
  simp only [bind_ok_iff, pure_ok_iff] at he
  obtain ⟨functions, hfunctions, components, hcomponents, id, hid, name, -, rfl⟩ := he
  exact stays (nullable_stays hes (whole_faithful k) (fun _ _ _ _ => nofun) hid)
    (defaulting_stays hes (fields_faithful (fields_faithful value_faithful) k)
      (returns_noFields _ valuesJson) hcomponents)
    (defaulting_stays hes (fields_faithful BoundFunction.faithful k) (returns_noFields ..)
      hfunctions)

end EntityDecl

theorem initialState_faithful (d : Nat) :
    Faithful (Reads initialStateOfJson) initialStateJson d := by
  intro j entities hj he
  obtain ⟨es, hes, he⟩ := bind_ok_iff.mp he
  obtain ⟨k, rfl, hes⟩ := record_parsed hj hes
  have h := defaulting_stays hes (list_faithful EntityDecl.faithful k) (returns_nil ..) he
  refine returns_record rfl (by simp) (by simpa using h.portable) fun es hes => ?_
  have hentities : defaulting es "entities" [] (list EntityDecl.ofJson) = .ok entities :=
    defaulting_held (by simp [hes, Table.find?]) h
  rw [initialStateOfJson, record, ok_bind, hentities]

namespace Module

structure StaysParts (d : Nat) (m : Module) : Prop where
  metadata : ∀ j ∈ m.metadata, Returns (Reads tree) id d j ∧ id j ≠ .null
  components : Returns (Reads (list ComponentDecl.ofJson))
    (fun cs => .arr (cs.map ComponentDecl.toJson)) d m.components
  rules : Returns (Reads (list RuleDecl.ofJson)) (fun rs => .arr (rs.map RuleDecl.toJson)) d m.rules
  functions : Returns (Reads (list FunctionDecl.ofJson))
    (fun fs => .arr (fs.map FunctionDecl.toJson)) d m.functions
  trackers : Returns (Reads (list tree)) (fun js => .arr (js.map id)) d m.trackers
  constants : Returns (Reads (fields value)) valuesJson d m.constants
  initialState : ∀ es ∈ m.initialState,
    Returns (Reads initialStateOfJson) initialStateJson d es ∧ initialStateJson es ≠ .null
  choiceFunctions : Returns (Reads (list tree)) (fun js => .arr (js.map id)) d m.choiceFunctions
  choicePoints : Returns (Reads (list tree)) (fun js => .arr (js.map id)) d m.choicePoints
  sourceMap : ∀ j ∈ m.sourceMap, Returns (Reads tree) id d j ∧ id j ≠ .null

theorem keys_nodup (m : Module) : (Table.keys m.toJson.entries).Nodup := by
  have hkeys : ["version", "module", "metadata", "components", "rules", "functions", "trackers",
    "constants", "initial_state", "choice_functions", "choice_points", "source_map"].Nodup := by
    decide
  refine hkeys.sublist ?_
  have hlists : ["components", "rules", "functions"].Sublist ["components", "rules", "functions"] :=
    .refl _
  simpa [toJson] using (keys_optional.append (hlists.append (keys_unlessNone.append
    (keys_unlessEmpty.append (keys_optional.append (keys_unlessNone.append
      (keys_unlessNone.append keys_optional))))))).cons_cons "module"

theorem StaysParts.stays {m : Module} (h : m.StaysParts d) :
    Returns (Reads Module.ofJson) toJson (d + 1) m := by
  refine returns_record rfl m.keys_nodup ?_ fun es hes => ?_
  · simp only [List.forall_mem_append, List.forall_mem_cons]
    refine ⟨⟨⟨⟨⟨⟨⟨⟨?_, ?_⟩, ?_⟩, ?_⟩, ?_⟩, ?_⟩, ?_⟩, ?_⟩, ?_⟩
    · exact ⟨portable_str _, portable_str _, List.forall_mem_nil _⟩
    · exact portable_optional fun j hj => (h.metadata j hj).1.portable
    · exact ⟨h.components.portable, h.rules.portable, h.functions.portable, List.forall_mem_nil _⟩
    · exact portable_unlessNone (by simpa using h.trackers.portable)
    · exact portable_unlessEmpty (by rw [Value.toJsonEntries_eq]; exact h.constants.portable)
    · exact portable_optional fun es hes => (h.initialState es hes).1.portable
    · exact portable_unlessNone (by simpa using h.choiceFunctions.portable)
    · exact portable_unlessNone (by simpa using h.choicePoints.portable)
    · exact portable_optional fun j hj => (h.sourceMap j hj).1.portable
  · have hversion : present es "version" text = .ok (some m.version) :=
      present_held (d := d) (by simp [hes, Table.find?]) (returns_text _)
    have hname : present es "module" text = .ok (some m.name) :=
      present_held (d := d) (by simp [hes, Table.find?]) (returns_text _)
    have hmetadata : nullable es "metadata" tree = .ok m.metadata :=
      nullable_held (by simp [hes, Table.find?, Table.find?_append]) h.metadata
    have hcomponents : defaulting es "components" [] (list ComponentDecl.ofJson) =
        .ok m.components :=
      defaulting_held (by simp [hes, Table.find?, Table.find?_append]) h.components
    have hrules : defaulting es "rules" [] (list RuleDecl.ofJson) = .ok m.rules :=
      defaulting_held (by simp [hes, Table.find?, Table.find?_append]) h.rules
    have hfunctions : defaulting es "functions" [] (list FunctionDecl.ofJson) = .ok m.functions :=
      defaulting_held (by simp [hes, Table.find?, Table.find?_append]) h.functions
    have htrackers : defaulting es "trackers" [] (list tree) = .ok m.trackers :=
      unlessNone_held (by simp [hes, Table.find?, Table.find?_append]) h.trackers
    have hconstants : defaulting es "constants" [] (fields value) = .ok m.constants :=
      unlessEmpty_held (by simp [hes, Table.find?, Table.find?_append]) (Value.toJsonEntries_eq _)
        h.constants
    have hinitial : nullable es "initial_state" initialStateOfJson = .ok m.initialState :=
      nullable_held (by simp [hes, Table.find?, Table.find?_append]) h.initialState
    have hchoices : defaulting es "choice_functions" [] (list tree) = .ok m.choiceFunctions :=
      unlessNone_held (by simp [hes, Table.find?, Table.find?_append]) h.choiceFunctions
    have hpoints : defaulting es "choice_points" [] (list tree) = .ok m.choicePoints :=
      unlessNone_held (by simp [hes, Table.find?, Table.find?_append]) h.choicePoints
    have hsource : nullable es "source_map" tree = .ok m.sourceMap :=
      nullable_held (by simp [hes, Table.find?, Table.find?_append]) h.sourceMap
    simp only [Module.ofJson, record, ok_bind, hversion, hname, hmetadata, hcomponents, hrules,
      hfunctions, htrackers, hconstants, hinitial, hchoices, hpoints, hsource, need]
    rfl

theorem faithful (d : Nat) : Faithful (Reads Module.ofJson) toJson d := by
  intro j m hj hm
  simp only [Reads, Module.ofJson, bind_ok_iff, need_ok_iff, pure_ok_iff] at hm
  obtain ⟨es, hes, choiceFunctions, hchoices, choicePoints, hpoints, components, hcomponents,
    constants, hconstants, functions, hfunctions, initialState, hinitial, metadata, hmetadata, name,
    -, rules, hrules, sourceMap, hsource, trackers, htrackers, version, -, version, rfl, name, rfl,
    rfl⟩ := hm
  obtain ⟨k, rfl, hes⟩ := record_parsed hj hes
  have nonnull (j j' : Json) (hne : j ≠ .null) (h : tree j = .ok j') : id j' ≠ .null := by
    obtain rfl := Except.ok.inj h
    exact hne
  exact StaysParts.stays {
    metadata := nullable_stays hes (tree_faithful k) nonnull hmetadata
    components := defaulting_stays hes (list_faithful ComponentDecl.faithful k) (returns_nil ..)
      hcomponents
    rules := defaulting_stays hes (list_faithful RuleDecl.faithful k) (returns_nil ..) hrules
    functions := defaulting_stays hes (list_faithful FunctionDecl.faithful k) (returns_nil ..)
      hfunctions
    trackers := defaulting_stays hes (list_faithful tree_faithful k) (returns_nil ..) htrackers
    constants := defaulting_stays hes (fields_faithful value_faithful k) (returns_noFields ..)
      hconstants
    initialState := nullable_stays hes (initialState_faithful k) (fun _ _ _ _ => nofun) hinitial
    choiceFunctions := defaulting_stays hes (list_faithful tree_faithful k) (returns_nil ..)
      hchoices
    choicePoints := defaulting_stays hes (list_faithful tree_faithful k) (returns_nil ..) hpoints
    sourceMap := nullable_stays hes (tree_faithful k) nonnull hsource }

end Module

end RuleSim
