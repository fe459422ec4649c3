import RuleSim.Expr.Writing
import RuleSim.Proofs.Expr.Parts
import RuleSim.Proofs.Value.Document

namespace RuleSim

open Json (Parts Parsed Portable Returns Faithful Items Entries portable_str portable_arr
  portable_obj returns_items returns_entries mem_of_forall₂)

namespace Json

abbrev Parts.Holds (p : Parts) (kind : String) (entries : List (String × Json)) : Prop :=
  ∀ i key, p.get? i key = (Table.find? (("type", .str kind) :: entries) key).map sorted

theorem node?_node {kind : String} {entries : List (String × Json)}
    (h : ("type" :: Table.keys entries).Nodup) (kinds : List (String × Nat)) (nested : Bool) :
    ∃ p, (node kind entries).sorted.node? kinds nested = some (kind, p) ∧
      p.Holds kind entries := by
  have hfind : ∀ key, _ = (Table.find? (("type", .str kind) :: entries) key).map sorted :=
    find?_sorted h
  refine ⟨.ofObject _, ?_, fun _ => hfind⟩
  rw [node, sorted_obj, node?, hfind]
  rfl

theorem Parsed.node? {d : Nat} {j : Json} (h : Parsed d j) {kinds : List (String × Nat)}
    {nested : Bool} {n : String × Parts} (hn : j.node? kinds nested = some n) :
    ∃ k, d = k + 1 ∧ ∀ i key j, n.2.get? i key = some j → Parsed k j := by
  cases j with
  | null | bool | int | float | str => cases hn
  | obj es =>
      obtain ⟨kind, -, rfl⟩ := Option.map_eq_some_iff.mp hn
      obtain ⟨k, rfl, -, hes⟩ := h.obj
      exact ⟨k, rfl, fun _ key j hj => Parsed.of_find? hes hj⟩
  | arr items =>
      cases items with
      | nil => cases hn
      | cons tag items =>
          obtain ⟨kind, -, hkind⟩ := Option.bind_eq_some_iff.mp hn
          split_ifs at hkind
          obtain rfl := Option.some.inj hkind
          obtain ⟨k, rfl, hitems⟩ := h.arr
          refine ⟨k, rfl, fun i _ j hj => ?_⟩
          exact hitems j (List.mem_cons_of_mem _ (List.mem_of_getElem? hj))

theorem returns_node {α : Type} {reader : Json → Option α} {f : String → Parts → Option α}
    {write : α → Json} {kinds : List (String × Nat)} {nested : Bool} {d : Nat} {a : α}
    {kind : String} {entries : List (String × Json)}
    (hreader : ∀ j, reader j = (j.node? kinds nested).bind fun n => f n.1 n.2)
    (hwrite : write a = node kind entries) (hkeys : ("type" :: Table.keys entries).Nodup)
    (hentries : ∀ p ∈ entries, Portable d p.2)
    (hback : ∀ p, Parts.Holds p kind entries → f kind p = some a) :
    Returns (fun j a => reader j = some a) write (d + 1) a := by
  refine ⟨?_, ?_⟩
  · rw [hwrite, node]
    exact portable_obj (List.forall_mem_cons.mpr ⟨portable_str kind, hentries⟩)
  · obtain ⟨p, hnode, hp⟩ := node?_node hkeys kinds nested
    rw [hreader, hwrite, hnode]
    exact hback p hp

theorem forall₂_of_collect {α β : Type} {g : List α → Option (List β)} {r : α → Option β}
    (hnil : g [] = some [])
    (hcons : ∀ a as, g (a :: as) = (r a).bind fun b => (g as).bind fun bs => some (b :: bs))
    {as : List α} {bs : List β} :
    g as = some bs ↔ List.Forall₂ (fun a b => r a = some b) as bs := by
  induction as generalizing bs with
  | nil => rw [hnil, Option.some.injEq, List.forall₂_nil_left_iff, eq_comm]
  | cons a as ih =>
      rw [hcons, List.forall₂_cons_left_iff]
      simp only [Option.bind_eq_some_iff, Option.some.injEq, ih]
      constructor
      · rintro ⟨b, hb, bs, hbs, rfl⟩
        exact ⟨b, bs, hb, hbs, rfl⟩
      · rintro ⟨b, bs, hb, hbs, rfl⟩
        exact ⟨b, hb, bs, hbs, rfl⟩

end Json

namespace Expr

abbrev Reads (j : Json) (e : Expr) : Prop := ofJson? true j = some e

def Stays (d : Nat) (e : Expr) : Prop :=
  ∀ nested, Returns (fun j e => ofJson? nested j = some e) toJson d e

theorem toJsonItems_eq (es : List Expr) : toJsonItems es = es.map toJson := by
  induction es with
  | nil => rfl
  | cons e es ih => rw [toJsonItems, ih, List.map_cons]

theorem toJsonFields_eq (fs : Fields Expr) :
    toJsonFields fs = fs.map fun p => (p.1, p.2.toJson) := by
  induction fs with
  | nil => rfl
  | cons p fs ih => rw [toJsonFields, ih, List.map_cons]

def componentJson (key : String) (c : String × Fields Expr) : Json :=
  .obj [(key, .str c.1), ("fields", .obj (toJsonFields c.2))]

theorem toJsonOverrides_eq (cs : List (String × Fields Expr)) :
    toJsonOverrides cs = cs.map (componentJson "component") := by
  induction cs with
  | nil => rfl
  | cons c cs ih => rw [toJsonOverrides, ih, List.map_cons, componentJson]

theorem ofItems?_iff {items : List Json} {es : List Expr} :
    ofItems? items = some es ↔ List.Forall₂ Reads items es :=
  Json.forall₂_of_collect (g := ofItems?) rfl fun _ _ => rfl

theorem ofFields?_iff {entries : List (String × Json)} {fs : Fields Expr} :
    ofFields? entries = some fs ↔
      List.Forall₂ (fun p q => p.1 = q.1 ∧ Reads p.2 q.2) entries fs := by
  rw [Json.forall₂_of_collect (g := ofFields?) (r := fun p => (ofJson? true p.2).map (p.1, ·)) rfl
    fun p ps => by cases hp : ofJson? true p.2 <;> simp [ofFields?, hp]]
  refine iff_of_eq (congrArg (List.Forall₂ · entries fs) ?_)
  funext p q
  simp only [Option.map_eq_some_iff, Prod.ext_iff, eq_iff_iff]
  aesop

theorem listOfJson?_iff {j : Json} {es : List Expr} :
    listOfJson? j = some es ↔ Items Reads j es := by
  cases j with
  | arr items => simp [listOfJson?, Items, ofItems?_iff]
  | _ => simp [listOfJson?, Items]

theorem fieldsOfJson?_iff {j : Json} {fs : Fields Expr} :
    fieldsOfJson? j = some fs ↔ Entries Reads j fs := by
  cases j with
  | obj es => simp [fieldsOfJson?, Entries, ofFields?_iff]
  | _ => simp [fieldsOfJson?, Entries]

abbrev ReadsComponent (key : String) (j : Json) (c : String × Fields Expr) : Prop :=
  componentOfJson? key j = some c

theorem ofOverrides?_iff {items : List Json} {cs : List (String × Fields Expr)} :
    ofOverrides? items = some cs ↔ List.Forall₂ (ReadsComponent "component") items cs := by
  refine Json.forall₂_of_collect (g := ofOverrides?) rfl fun j js => ?_
  rw [ofOverrides?.eq_def]
  split
  · next h => cases h
  · next h =>
      obtain ⟨rfl, rfl⟩ := List.cons.inj h
      simp [componentOfJson?, Option.bind_assoc]
  · next h =>
      obtain ⟨rfl, rfl⟩ := List.cons.inj h
      simp [componentOfJson?]
  · next h =>
      obtain ⟨rfl, rfl⟩ := List.cons.inj h
      simp [componentOfJson?, Option.bind_map]
  · next hobj hone htwo h =>
      obtain ⟨rfl, rfl⟩ := List.cons.inj h
      rw [componentOfJson?.eq_def]
      split
      · exact (hobj _ rfl).elim
      · exact (hone _ rfl).elim
      · exact (htwo _ _ rfl).elim
      · rfl

theorem overridesOfJson?_iff {j : Json} {cs : List (String × Fields Expr)} :
    overridesOfJson? j = some cs ↔ Items (ReadsComponent "component") j cs := by
  cases j with
  | arr items => simp [overridesOfJson?, Items, ofOverrides?_iff]
  | _ => simp [overridesOfJson?, Items]

end Expr

section Parts

variable {d : Nat}

abbrev EntityRef.Stays (d : Nat) (r : EntityRef) : Prop :=
  Returns (fun j r => EntityRef.ofJson? j = some r) EntityRef.toJson d r

namespace Expr

abbrev StaysItems (d : Nat) (es : List Expr) : Prop :=
  Returns (Items Reads) (fun es => .arr (es.map toJson)) d es

abbrev StaysFields (d : Nat) (fs : Fields Expr) : Prop :=
  Returns (Entries Reads) (fun fs => .obj (fs.map fun p => (p.1, p.2.toJson))) d fs

abbrev StaysComponents (key : String) (d : Nat) (cs : List (String × Fields Expr)) : Prop :=
  Returns (Items (ReadsComponent key)) (fun cs => .arr (cs.map (componentJson key))) d cs

def Faithful (d : Nat) : Prop :=
  ∀ ⦃nested : Bool⦄ ⦃j : Json⦄ ⦃e : Expr⦄, Parsed d j → ofJson? nested j = some e → e.Stays (d + 1)

theorem Faithful.reads (h : Faithful d) : Json.Faithful Reads toJson d :=
  fun _ _ hj he => h hj he true

theorem toJson_ne_null (e : Expr) : e.toJson ≠ .null := by
  cases e <;> rw [toJson, node] <;> exact nofun

theorem toJson_ne_str (e : Expr) (s : String) : e.toJson.sorted ≠ .str s := by
  cases e <;> rw [toJson, node, Json.sorted_obj] <;> exact nofun

theorem Faithful.ref (h : Faithful d) :
    Json.Faithful (fun j r => EntityRef.ofJson? j = some r) EntityRef.toJson d := by
  intro j r hj hr
  rw [EntityRef.ofJson?.eq_def] at hr
  split at hr
  · obtain rfl := Option.some.inj hr
    exact ⟨portable_str _, rfl⟩
  · obtain ⟨e, he, rfl⟩ := Option.map_eq_some_iff.mp hr
    obtain ⟨hportable, hback⟩ := h hj he true
    refine ⟨hportable, ?_⟩
    rw [EntityRef.toJson, EntityRef.ofJson?, hback]
    · rfl
    · exact e.toJson_ne_str

theorem Faithful.fields (h : ∀ k < d, Faithful k) :
    Json.Faithful (Entries Reads) (fun fs => .obj (fs.map fun p => (p.1, p.2.toJson))) d :=
  Json.Faithful.entries fun k hk => (h k hk).reads

variable {key : String} (hkey : key ≠ "fields")

include hkey

theorem stays_component {c : String} {fs : Fields Expr} (h : StaysFields d fs) :
    Returns (ReadsComponent key) (componentJson key) (d + 1) (c, fs) := by
  have hnodup : (Table.keys [(key, Json.str c),
      ("fields", .obj (fs.map fun p => (p.1, p.2.toJson)))]).Nodup := by simp [hkey]
  have hback := fieldsOfJson?_iff.mpr h.back
  refine ⟨?_, ?_⟩
  · rw [componentJson, toJsonFields_eq]
    exact portable_obj (by simpa using h.portable)
  · rw [ReadsComponent, componentJson, toJsonFields_eq, Json.sorted_obj, componentOfJson?,
      Json.strAt?, Json.find?_sorted hnodup, fieldsAt?_eq, Json.find?_sorted hnodup]
    simp [Table.find?, Json.str?, hback, hkey.symm]

theorem Faithful.component (h : ∀ k < d, Faithful k) :
    Json.Faithful (ReadsComponent key) (componentJson key) d := by
  rintro j ⟨c, fs⟩ hj ho
  rw [ReadsComponent, componentOfJson?.eq_def] at ho
  split at ho
  · obtain ⟨k, rfl, -, hes⟩ := hj.obj
    obtain ⟨c, -, ho⟩ := Option.bind_eq_some_iff.mp ho
    obtain ⟨fs, hfs, ho⟩ := Option.bind_eq_some_iff.mp ho
    obtain ⟨rfl, rfl⟩ := Prod.mk.inj (Option.some.inj ho)
    rw [fieldsAt?_eq] at hfs
    refine stays_component hkey
      (Json.Faithful.elim ?_ fieldsOfJson?_iff.mp (fun j => Parsed.of_find? hes) ?_ hfs)
    · exact Faithful.fields fun l hl => h l (hl.trans k.lt_succ_self)
    · rintro _ ⟨⟩
      exact returns_entries List.Pairwise.nil nofun
  · obtain ⟨k, rfl, -⟩ := hj.arr
    obtain ⟨rfl, rfl⟩ := Prod.mk.inj (Option.some.inj ho)
    exact stays_component hkey (returns_entries List.Pairwise.nil nofun)
  · next es =>
      obtain ⟨k, rfl, hitems⟩ := hj.arr
      obtain ⟨fs, hfs, ho⟩ := Option.map_eq_some_iff.mp ho
      obtain ⟨rfl, rfl⟩ := Prod.mk.inj ho
      have hes : Parsed k (.obj es) := hitems _ (by simp)
      have hfaithful := Faithful.fields fun l hl => h l (hl.trans k.lt_succ_self)
      exact stays_component hkey (hfaithful hes ⟨es, rfl, ofFields?_iff.mp hfs⟩)
  · cases ho

theorem Faithful.components (h : ∀ k < d, Faithful k) :
    Json.Faithful (Items (ReadsComponent key)) (fun cs => .arr (cs.map (componentJson key))) d :=
  Json.Faithful.items fun _ hk => Faithful.component hkey fun l hl => h l (hl.trans hk)

end Expr

end Parts

theorem BinaryOp.ofName?_name (op : BinaryOp) : ofName? op.name = some op := by cases op <;> rfl

theorem UnaryOp.ofName?_name (op : UnaryOp) : ofName? op.name = some op := by cases op <;> rfl

namespace Expr

variable {d : Nat}

theorem stays_of_node {e : Expr} {kind : String} {entries : List (String × Json)}
    (he : e.toJson = node kind entries) (hkeys : ("type" :: Table.keys entries).Nodup)
    (hentries : ∀ p ∈ entries, Portable d p.2)
    (hback : ∀ p, Json.Parts.Holds p kind entries → ofParts? kind p.ofExpr = some e) :
    e.Stays (d + 1) :=
  fun nested => Json.returns_node (f := fun kind p => ofParts? kind p.ofExpr) (ofJson?_eq nested) he
    hkeys hentries hback

theorem returns_null : Returns (fun j v => Value.ofJson j = v) Value.toJson d .null :=
  ⟨Json.portable_null, rfl⟩

theorem stays_literal {v : Value} (h : Returns (fun j v => Value.ofJson j = v) Value.toJson d v) :
    (literal v).Stays (d + 1) := by
  refine stays_of_node rfl (by simp) (by simpa using h.portable) fun p hp => ?_
  simp [hp, Parts.ofExpr, Table.find?, h.back]

theorem stays_var (name : String) : (var name).Stays (d + 1) := by
  refine stays_of_node rfl (by simp) (by simp) fun p hp => ?_
  simp [hp, Parts.ofExpr, Parts.text?, Json.str?, Table.find?]

theorem stays_param (name : String) : (param name).Stays (d + 1) := by
  refine stays_of_node rfl (by simp) (by simp) fun p hp => ?_
  simp [hp, Parts.ofExpr, Parts.text?, Json.str?, Table.find?]

theorem stays_field {r : EntityRef} (hr : r.Stays d) (c f : String) :
    (field r c f).Stays (d + 1) := by
  refine stays_of_node rfl (by simp) (by simpa using hr.portable) fun p hp => ?_
  simp [hp, Parts.ofExpr, Parts.text?, Json.str?, Table.find?, hr.back]

theorem stays_binary (op : BinaryOp) {l r : Expr} (hl : l.Stays d) (hr : r.Stays d) :
    (binary op l r).Stays (d + 1) := by
  refine stays_of_node rfl (by simp) ?_ fun p hp => ?_
  · simpa using ⟨(hl true).portable, (hr true).portable⟩
  · simp [hp, Parts.ofExpr, Parts.name?, Json.name?, Table.find?,
      BinaryOp.ofName?_name, (hl true).back, (hr true).back]

theorem stays_unary (op : UnaryOp) {e : Expr} (h : e.Stays d) : (unary op e).Stays (d + 1) := by
  refine stays_of_node rfl (by simp) (by simpa using (h true).portable) fun p hp => ?_
  simp [hp, Parts.ofExpr, Parts.name?, Json.name?, Table.find?,
    UnaryOp.ofName?_name, (h true).back]

theorem stays_call (f : String) {args : List Expr} (h : StaysItems d args) :
    (call f args).Stays (d + 1) := by
  refine stays_of_node (by rw [toJson, toJsonItems_eq]) (by simp) (by simpa using h.portable)
    fun p hp => ?_
  simp [hp, Parts.ofExpr, Parts.text?, Json.str?, Table.find?,
    listOfJson?_iff.mpr h.back]

theorem stays_choice {c t e : Expr} (hc : c.Stays d) (ht : t.Stays d) (he : e.Stays d) :
    (choice c t e).Stays (d + 1) := by
  refine stays_of_node rfl (by simp) ?_ fun p hp => ?_
  · simpa using ⟨(hc true).portable, (ht true).portable, (he true).portable⟩
  · simp [hp, Parts.ofExpr, Table.find?, (hc true).back, (ht true).back,
      (he true).back]

theorem stays_clone {r : EntityRef} {cs : List (String × Fields Expr)} (hr : r.Stays d)
    (hc : StaysComponents "component" d cs) : (clone r cs).Stays (d + 1) := by
  refine stays_of_node (by rw [toJson, toJsonOverrides_eq]) (by simp) ?_ fun p hp => ?_
  · simpa using ⟨hr.portable, hc.portable⟩
  · simp [hp, Parts.ofExpr, Table.find?, hr.back,
      overridesOfJson?_iff.mpr hc.back]

theorem stays_boundCall {r : EntityRef} (f : String) {args : List Expr} (hr : r.Stays d)
    (h : StaysItems d args) : (boundCall r f args).Stays (d + 1) := by
  refine stays_of_node (by rw [toJson, toJsonItems_eq]) (by simp) ?_ fun p hp => ?_
  · simpa using ⟨hr.portable, h.portable⟩
  · simp [hp, Parts.ofExpr, Parts.text?, Json.str?, Table.find?, hr.back,
      listOfJson?_iff.mpr h.back]

section

variable {p : Json.Parts} {i : Nat} {key : String} (h : ∀ k ≤ d, Faithful k)
  (hp : ∀ i key j, p.get? i key = some j → Parsed d j)

include h hp

theorem expr?_stays {e : Expr} (he : p.ofExpr.expr? i key = some e) : e.Stays (d + 1) := by
  cases hj : p.get? i key with
  | none => simp [Parts.ofExpr, hj] at he
  | some j =>
      simp only [Parts.ofExpr, hj, Option.elim_some] at he
      exact h d le_rfl (hp i key j hj) he

theorem ref?_stays {r : EntityRef} (hr : p.ofExpr.ref? i key = some r) : r.Stays (d + 1) :=
  (h d le_rfl).ref.elim id (hp i key) (by simp) hr

theorem exprs?_stays {es : List Expr} (hes : p.ofExpr.exprs? i key = some es) :
    StaysItems (d + 1) es := by
  refine Json.Faithful.elim (.items fun k hk => (h k hk.le).reads) listOfJson?_iff.mp (hp i key) ?_
    hes
  rintro _ ⟨⟩
  exact returns_items nofun

theorem overrides?_stays {cs : List (String × Fields Expr)}
    (hcs : p.ofExpr.overrides? i key = some cs) : StaysComponents "component" (d + 1) cs := by
  refine Json.Faithful.elim (Faithful.components (by decide) fun k hk => h k hk.le)
    overridesOfJson?_iff.mp (hp i key) ?_ hcs
  rintro _ ⟨⟩
  exact returns_items nofun

theorem stays_of_parts {kind : String} {e : Expr} (he : ofParts? kind p.ofExpr = some e) :
    e.Stays (d + 2) := by
  rw [ofParts?.eq_def] at he
  split at he
  · obtain rfl := Option.some.inj he
    apply stays_literal
    cases hv : p.get? 0 "value" with
    | none => simpa [Parts.ofExpr, hv] using returns_null
    | some j =>
        simpa [Parts.ofExpr, hv] using Value.ofJson_faithful d (hp 0 "value" j hv) rfl
  · obtain ⟨name, -, rfl⟩ := Option.map_eq_some_iff.mp he
    exact stays_var name
  · obtain ⟨name, -, rfl⟩ := Option.map_eq_some_iff.mp he
    exact stays_param name
  all_goals
    simp only [Option.pure_def, Option.bind_eq_bind, Option.bind_eq_some_iff, Option.some.injEq,
      reduceCtorEq] at he
  · obtain ⟨r, hr, c, -, f, -, rfl⟩ := he
    exact stays_field (ref?_stays h hp hr) c f
  · obtain ⟨op, -, l, hl, r, hr, rfl⟩ := he
    exact stays_binary op (expr?_stays h hp hl) (expr?_stays h hp hr)
  · obtain ⟨op, -, e, he, rfl⟩ := he
    exact stays_unary op (expr?_stays h hp he)
  · obtain ⟨f, -, args, hargs, rfl⟩ := he
    exact stays_call f (exprs?_stays h hp hargs)
  · obtain ⟨c, hc, t, ht, e, he, rfl⟩ := he
    exact stays_choice (expr?_stays h hp hc) (expr?_stays h hp ht) (expr?_stays h hp he)
  · obtain ⟨r, hr, cs, hcs, rfl⟩ := he
    exact stays_clone (ref?_stays h hp hr) (overrides?_stays h hp hcs)
  · obtain ⟨r, hr, f, -, args, hargs, rfl⟩ := he
    exact stays_boundCall f (ref?_stays h hp hr) (exprs?_stays h hp hargs)

end

/-- What is read as an expression comes back, whatever its depth. -/
theorem faithful (d : Nat) : Faithful d := by
  induction d using Nat.strong_induction_on with
  | h d ih =>
      intro nested j e hj he
      rw [ofJson?_eq] at he
      obtain ⟨n, hn, he⟩ := Option.bind_eq_some_iff.mp he
      obtain ⟨k, rfl, hparts⟩ := hj.node? hn
      exact stays_of_parts (fun l hl => ih l (Nat.lt_succ_of_le hl)) hparts he

end Expr

end RuleSim
