import RuleSim.Document.Load
import RuleSim.Proofs.Document.Return
import RuleSim.Proofs.Json.Reader

namespace RuleSim

namespace Document

open Json (exists_sorted_obj)
open Read (ok_bind)

variable {es : Entries} {key path : String}

theorem requiredText_ok {s : String} (h : Table.find? es key = some (.str s)) :
    requiredText es key path = .ok s := by
  simp only [requiredText, required, h]
  rfl

theorem requiredItems_ok {items : List Json} (h : Table.find? es key = some (.arr items)) :
    requiredItems es key path = .ok items := by
  simp only [requiredItems, required, h]
  rfl

theorem required_ok {j : Json} (h : Table.find? es key = some j) (hj : j ≠ .null) :
    required es key path = .ok j := by
  rw [required, h]
  cases j <;> simp_all

theorem required_eq_ok {j : Json} (h : required es key path = .ok j) :
    Table.find? es key = some j := by
  rw [required.eq_def] at h
  split at h
  · cases h
  · cases h
  · next j' _ hj =>
      obtain rfl := Except.ok.inj h
      exact hj

theorem requiredText_eq_ok {s : String} (h : requiredText es key path = .ok s) :
    Table.find? es key = some (.str s) := by
  obtain ⟨j, hj, h⟩ := bind_ok_iff.mp h
  split at h
  · obtain rfl := Except.ok.inj h
    exact required_eq_ok hj
  · cases h

theorem requiredItems_eq_ok {items : List Json} (h : requiredItems es key path = .ok items) :
    Table.find? es key = some (.arr items) := by
  obtain ⟨j, hj, h⟩ := bind_ok_iff.mp h
  split at h
  · obtain rfl := Except.ok.inj h
    exact required_eq_ok hj
  · cases h

theorem objectAt_eq_ok {j : Json} (h : objectAt path j = .ok es) : j = .obj es := by
  cases j with
  | obj es' => exact congrArg Json.obj (Except.ok.inj h)
  | _ => cases h

theorem forM_ok_iff {α ε : Type} {f : α → Except ε Unit} {as : List α} :
    as.forM f = .ok () ↔ ∀ a ∈ as, f a = .ok () := by
  induction as with
  | nil => exact ⟨fun _ => nofun, fun _ => rfl⟩
  | cons a as ih =>
      rw [List.forall_mem_cons, ← ih]
      change (f a >>= fun _ => as.forM f) = .ok () ↔ _
      rw [bind_ok_iff]
      exact ⟨fun ⟨_, ha, has⟩ => ⟨ha, has⟩, fun ⟨ha, has⟩ => ⟨(), ha, has⟩⟩

theorem eachItem_ok {items : List Json} {check : String → Json → Check Unit}
    (h : ∀ j ∈ items, ∀ path, check path j = .ok ()) : eachItem path items check = .ok () :=
  forM_ok_iff.mpr fun p hp => h p.1 (List.fst_mem_of_mem_zipIdx hp) _

theorem eachItem_eq_ok {items : List Json} {check : String → Json → Check Unit}
    (h : eachItem path items check = .ok ()) : ∀ j ∈ items, ∃ path, check path j = .ok () := by
  intro j hj
  obtain ⟨i, hi⟩ := List.getElem?_of_mem hj
  exact ⟨_, forM_ok_iff.mp h (j, i) (List.mk_mem_zipIdx_iff_getElem?.mpr hi)⟩

theorem checkField_written (f : FieldDecl) (path : String) :
    checkField path f.toJson.sorted = .ok () := by
  obtain ⟨es, (hsorted : f.toJson.sorted = .obj es), hes⟩ := exists_sorted_obj f.keys_nodup
  have hname : Table.find? es "name" = some (.str f.name) := by
    simp [hes, FieldDecl.toJson, Table.find?]
  have htype : Table.find? es "type" = some f.type.toJson.sorted := by
    simp [hes, FieldDecl.toJson, Table.find?]
  simp only [checkField, hsorted, objectAt, ok_bind, requiredText_ok hname,
    required_ok htype (Json.sorted_ne_null f.type.toJson_ne_null)]
  rfl

theorem checkComponent_written (c : ComponentDecl) (path : String) :
    checkComponent path c.toJson.sorted = .ok () := by
  obtain ⟨es, (hsorted : c.toJson.sorted = .obj es), hes⟩ := exists_sorted_obj c.keys_nodup
  have hname : Table.find? es "name" = some (.str c.name) := by
    simp [hes, ComponentDecl.toJson, Table.find?, Table.find?_append]
  have hfields : Table.find? es "fields" =
      some (.arr (c.fields.map fun f => f.toJson.sorted)) := by
    simp [hes, ComponentDecl.toJson, Table.find?, Table.find?_append, Json.sorted_arr,
      Function.comp_def]
  simp only [checkComponent, hsorted, objectAt, ok_bind, requiredText_ok hname,
    requiredItems_ok hfields]
  exact eachItem_ok (List.forall_mem_map.mpr fun f _ => checkField_written f)

theorem checkFunction_written (f : FunctionDecl) (path : String) :
    checkFunction path f.toJson.sorted = .ok () := by
  obtain ⟨es, (hsorted : f.toJson.sorted = .obj es), hes⟩ := exists_sorted_obj f.keys_nodup
  have hname : Table.find? es "name" = some (.str f.name) := by
    simp [hes, FunctionDecl.toJson, Table.find?, Table.find?_append]
  have hparams : Table.find? es "params" = some (.arr (f.params.map fun p => p.toJson.sorted)) := by
    simp [hes, FunctionDecl.toJson, Table.find?, Table.find?_append, Json.sorted_arr,
      Function.comp_def]
  have hbody : Table.find? es "body" = some f.body.toJson.sorted := by
    simp [hes, FunctionDecl.toJson, Table.find?, Table.find?_append]
  simp only [checkFunction, hsorted, objectAt, ok_bind, requiredText_ok hname,
    requiredItems_ok hparams, required_ok hbody (Json.sorted_ne_null f.body.toJson_ne_null)]
  rfl

theorem wrapped_written {α : Type} {write : α → Json} {inner : String} {o : Option (List α)}
    (h : Table.find? es key =
      (o.map fun as => Json.obj [(inner, .arr (as.map write))]).map Json.sorted) :
    Table.find? es key = none ∨ ∃ fs items, Table.find? es key = some (.obj fs) ∧
      Table.find? fs inner = some (.arr items) := by
  cases o with
  | none => exact .inl h
  | some as =>
      have hnodup : (Table.keys [(inner, Json.arr (as.map write))]).Nodup := by simp
      obtain ⟨fs, hfs, hparts⟩ := exists_sorted_obj hnodup
      refine .inr ⟨fs, (as.map write).map Json.sorted, h.trans (congrArg some hfs), ?_⟩
      rw [hparts, Table.find?, if_pos rfl, Option.map_some, Json.sorted_arr]

def NamesEvent (r : RuleDecl) : Prop := r.trigger.kind = "event" → r.trigger.event.isSome = true

theorem checkRule_written {r : RuleDecl} (h : NamesEvent r) (path : String) :
    checkRule path r.toJson.sorted = .ok () := by
  obtain ⟨es, (hsorted : r.toJson.sorted = .obj es), hes⟩ := exists_sorted_obj r.keys_nodup
  obtain ⟨ts, (hts : r.trigger.toJson.sorted = .obj ts), hparts⟩ :=
    exists_sorted_obj r.trigger.keys_nodup
  have htrigger : Table.find? es "trigger" = some (.obj ts) := by
    simp [hes, RuleDecl.toJson, Table.find?, Table.find?_append, hts]
  have hactions : Table.find? es "actions" =
      some (.arr (r.actions.map fun a => a.toJson.sorted)) := by
    simp [hes, RuleDecl.toJson, Table.find?, Table.find?_append, Action.toJsonItems_eq,
      Json.sorted_arr, Function.comp_def]
  have hfilter : Table.find? es "filter" = (r.filter.map filterJson).map Json.sorted := by
    simp [hes, RuleDecl.toJson, Table.find?, Table.find?_append]
  have htype : Table.find? ts "type" = some (.str r.trigger.kind) := by
    simp [hparts, Trigger.toJson, Table.find?]
  have hevent (hkind : r.trigger.kind = "event") :
      ∃ e, requiredText ts "event" (path ++ ".trigger") = .ok e := by
    obtain ⟨e, he⟩ := Option.isSome_iff_exists.mp (h hkind)
    refine ⟨e, requiredText_ok ?_⟩
    simp [hparts, Trigger.toJson, Table.find?, Table.find?_append, he]
  rcases wrapped_written hfilter with hnone | ⟨fs, items, hfs, hitems⟩
  · simp only [checkRule, hsorted, objectAt, ok_bind, required_ok htrigger (Json.obj_ne_null ts), htype,
      requiredItems_ok hactions, hnone]
    split
    · next hkind =>
        obtain ⟨e, he⟩ := hevent (by simpa using hkind)
        rw [he]
        rfl
    · rfl
  · simp only [checkRule, hsorted, objectAt, ok_bind, required_ok htrigger (Json.obj_ne_null ts), htype,
      requiredItems_ok hactions, hfs, requiredItems_ok hitems]
    split
    · next hkind =>
        obtain ⟨e, he⟩ := hevent (by simpa using hkind)
        rw [he]
        rfl
    · rfl

theorem text_eq_ok {j : Json} {s : String} (h : Read.text j = .ok s) : j = .str s := by
  cases j with
  | str s' => exact congrArg Json.str (Except.ok.inj h)
  | _ => cases h

theorem trigger_of_object {ts : Entries} {t : Trigger} (h : Trigger.ofJson (.obj ts) = .ok t) :
    Table.find? ts "type" = some (.str t.kind) ∧
      ∀ e, Table.find? ts "event" = some (.str e) → t.event = some e := by
  simp only [Trigger.ofJson, Read.record, ok_bind, bind_ok_iff, Read.need_ok_iff, pure_ok_iff] at h
  obtain ⟨bindings, -, event, hevent, kind, htype, kind, rfl, rfl⟩ := h
  obtain ⟨j, hj, hkind⟩ := Read.present_eq_ok htype
  refine ⟨text_eq_ok hkind ▸ hj, fun e he => ?_⟩
  rw [Read.nullable, he] at hevent
  exact (Except.ok.inj hevent).symm

theorem namesEvent_of_checkRule {path : String} {j : Json} (hc : checkRule path j = .ok ())
    {r : RuleDecl} (hr : RuleDecl.ofJson j = .ok r) : NamesEvent r := by
  intro hkind
  simp only [checkRule, bind_ok_iff] at hc
  obtain ⟨es, hes, t, ht, ts, hts, hc⟩ := hc
  obtain rfl := objectAt_eq_ok hes
  obtain rfl := objectAt_eq_ok hts
  have htrigger : Trigger.ofJson (.obj ts) = .ok r.trigger := by
    simp only [RuleDecl.ofJson, Read.record, ok_bind, bind_ok_iff, Read.need_ok_iff, pure_ok_iff]
      at hr
    obtain ⟨_, -, _, -, _, -, _, -, _, -, _, -, trigger, htrigger, trigger, rfl, _, -, rfl⟩ := hr
    obtain ⟨_, ht', htrigger⟩ := Read.present_eq_ok htrigger
    obtain rfl := Option.some.inj ((required_eq_ok ht).symm.trans ht')
    exact htrigger
  obtain ⟨htype, hevent⟩ := trigger_of_object htrigger
  rw [hkind] at htype
  simp only [htype, bind_ok_iff] at hc
  obtain ⟨e, he, -⟩ := hc
  rw [hevent e (requiredText_eq_ok he)]
  rfl

theorem validate_written {m : Module} {v : Version} (hv : Version.check m.version = .ok v)
    (hr : ∀ r ∈ m.rules, NamesEvent r) : validate m.toJson.sorted = .ok v := by
  obtain ⟨es, (hsorted : m.toJson.sorted = .obj es), hes⟩ := exists_sorted_obj m.keys_nodup
  have hversion : Table.find? es "version" = some (.str m.version) := by
    simp [hes, Module.toJson, Table.find?]
  have hname : Table.find? es "module" = some (.str m.name) := by
    simp [hes, Module.toJson, Table.find?]
  have hcomponents : Table.find? es "components" =
      some (.arr (m.components.map fun c => c.toJson.sorted)) := by
    simp [hes, Module.toJson, Table.find?, Table.find?_append, Json.sorted_arr, Function.comp_def]
  have hrules : Table.find? es "rules" = some (.arr (m.rules.map fun r => r.toJson.sorted)) := by
    simp [hes, Module.toJson, Table.find?, Table.find?_append, Json.sorted_arr, Function.comp_def]
  have hfunctions : Table.find? es "functions" =
      some (.arr (m.functions.map fun f => f.toJson.sorted)) := by
    simp [hes, Module.toJson, Table.find?, Table.find?_append, Json.sorted_arr, Function.comp_def]
  have hinitial : Table.find? es "initial_state" =
      (m.initialState.map initialStateJson).map Json.sorted := by
    simp [hes, Module.toJson, Table.find?, Table.find?_append]
  have checkedComponents : eachItem "components" (m.components.map fun c => c.toJson.sorted)
      checkComponent = .ok () :=
    eachItem_ok (List.forall_mem_map.mpr fun c _ => checkComponent_written c)
  have checkedRules : eachItem "rules" (m.rules.map fun r => r.toJson.sorted) checkRule = .ok () :=
    eachItem_ok (List.forall_mem_map.mpr fun r h => checkRule_written (hr r h))
  have checkedFunctions : eachItem "functions" (m.functions.map fun f => f.toJson.sorted)
      checkFunction = .ok () :=
    eachItem_ok (List.forall_mem_map.mpr fun f _ => checkFunction_written f)
  rcases wrapped_written hinitial with hnone | ⟨fs, items, hfs, hitems⟩
  · simp only [validate, hsorted, requiredText_ok hversion, requiredText_ok hname, ok_bind, hv,
      requiredItems_ok hcomponents, requiredItems_ok hrules, requiredItems_ok hfunctions,
      checkedComponents, checkedRules, checkedFunctions, hnone]
    rfl
  · simp only [validate, hsorted, requiredText_ok hversion, requiredText_ok hname, ok_bind, hv,
      requiredItems_ok hcomponents, requiredItems_ok hrules, requiredItems_ok hfunctions,
      checkedComponents, checkedRules, checkedFunctions, hfs, objectAt, requiredItems_ok hitems]
    rfl

theorem of_validate {doc : Json} {v : Version} (hv : validate doc = .ok v) {m : Module}
    (hm : Module.ofJson doc = .ok m) :
    (∃ v, Version.check m.version = .ok v) ∧ ∀ r ∈ m.rules, NamesEvent r := by
  cases doc with
  | obj es =>
      simp only [validate, bind_ok_iff] at hv
      obtain ⟨version, hversion, v, hcheck, _, -, _, -, items, hitems, _, -, _, -, _, hchecked,
        -⟩ := hv
      simp only [Module.ofJson, Read.record, ok_bind, bind_ok_iff, Read.need_ok_iff, pure_ok_iff]
        at hm
      obtain ⟨_, -, _, -, _, -, _, -, _, -, _, -, _, -, _, -, rules, hrules, _, -, _, -, _, htext,
        _, rfl, _, -, rfl⟩ := hm
      obtain ⟨j, hj, htext⟩ := Read.present_eq_ok htext
      obtain rfl := Option.some.inj ((requiredText_eq_ok hversion).symm.trans hj)
      refine ⟨⟨v, Except.ok.inj htext ▸ hcheck⟩, ?_⟩
      rw [Read.defaulting, requiredItems_eq_ok hitems] at hrules
      obtain ⟨_, ⟨⟩, hread⟩ := Read.list_ok_iff.mp hrules
      refine Json.mem_of_forall₂ hread fun j hj r hr => ?_
      obtain ⟨path, hpath⟩ := eachItem_eq_ok hchecked j hj
      exact namesEvent_of_checkRule hpath hr
  | _ => cases hv

end Document

namespace Module

theorem load_ok_iff {doc : Json} {m : Module} :
    load doc = .ok m ↔ (∃ v, Document.validate doc = .ok v) ∧ ofJson doc = .ok m ∧
      m.checkTriggers = .ok () ∧ checkIds [] 0 m.initialEntities = .ok () := by
  rw [load, bind_ok_iff]
  cases hm : ofJson doc with
  | error f => simp [Document.flaw]
  | ok m' =>
      simp only [bind_ok_iff, pure_ok_iff, Except.ok.injEq]
      constructor
      · rintro ⟨v, hv, _, ht, _, hi, rfl⟩
        exact ⟨⟨v, hv⟩, rfl, ht, hi⟩
      · rintro ⟨⟨v, hv⟩, rfl, ht, hi⟩
        exact ⟨v, hv, (), ht, (), hi, rfl⟩

/-- A module that was loaded is loaded again from the tree that is written for it. -/
theorem load_written {d : Nat} {doc : Json} (hd : Json.Parsed d doc) {m : Module}
    (h : load doc = .ok m) : Json.Portable (d + 1) m.toJson ∧ load m.toJson.sorted = .ok m := by
  obtain ⟨⟨v, hv⟩, hm, ht, hi⟩ := load_ok_iff.mp h
  obtain ⟨hportable, hback⟩ := faithful d hd hm
  obtain ⟨⟨w, hw⟩, hr⟩ := Document.of_validate hv hm
  exact ⟨hportable, load_ok_iff.mpr ⟨⟨w, Document.validate_written hw hr⟩, hback, ht, hi⟩⟩

/-- Every module that is loaded from text comes back, whole, from its MessagePack form. The form
exists for modules whose texts, lists and maps have lengths of 32 bits. -/
theorem loadBytes_toBytes {text : String} {m : Module} (h : loadText text = .ok m)
    (hsmall : m.toJson.all Json.small = true) : loadBytes m.toBytes = .ok m := by
  rw [loadText] at h
  cases hdoc : Json.parse? text with
  | none => simp [hdoc, Document.flaw] at h
  | some doc =>
      rw [hdoc] at h
      obtain ⟨hplain, horderly, hdepth⟩ := Json.parse?_plain hdoc
      obtain ⟨hportable, hload⟩ := load_written ⟨hplain, horderly, hdepth⟩ h
      have hlevels : Json.Form.maxDepth + 1 ≤ Pack.maxDepth := by decide
      rw [loadBytes, toBytes,
        Pack.document_ofBytes hsmall hportable.plain (hportable.depth.trans hlevels)]
      exact hload

def terseText : String :=
  "\x7b\"version\":\"1\",\"module\":\"m\",\"components\":[],\"rules\":[],\"functions\":
[\x7b\"name\":\"f\",\"params\":[\"x\"],\"body\":[\"var\",\"x\"]\x7d]\x7d"

def terse : Json :=
  .obj [("components", .arr []), ("functions", .arr [.obj [("body", .arr [.str "var", .str "x"]),
      ("name", .str "f"), ("params", .arr [.str "x"])]]),
    ("module", .str "m"), ("rules", .arr []), ("version", .str "1")]

theorem terse_returns : ∃ m, loadText terseText = .ok m ∧ loadBytes m.toBytes = .ok m := by
  have hdoc : Json.parse? terseText = some terse := by
    rw [Json.parse?, Json.Form.ofText?, terseText, String.toList_ofList]
    rfl
  have htext : loadText terseText = load terse := by rw [loadText, hdoc]
  have hsmall : ((load terse).toOption.any fun m => m.toJson.all Json.small) = true := by
    decide +kernel
  cases h : load terse with
  | error e => simp [h, Except.toOption] at hsmall
  | ok m =>
      rw [h] at hsmall htext
      exact ⟨m, htext, loadBytes_toBytes htext hsmall⟩

end Module

end RuleSim
