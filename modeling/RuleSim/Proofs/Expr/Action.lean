import RuleSim.Proofs.Expr.Return

namespace RuleSim

open Json (Parts Parsed Portable Returns Items Entries portable_str portable_obj returns_items
  returns_entries)

section Optional

variable {α : Type} {f : α → Json} {key : String} {o : Option α} {es : List (String × Json)}

@[simp] theorem find?_optional (k : String) :
    Table.find? (optional key f o) k = if k = key then o.map f else none := by
  cases o <;> simp [optional, Table.find?]

@[simp] theorem find?_unlessEmpty (k : String) :
    Table.find? (unlessEmpty key es) k = if k = key ∧ es ≠ [] then some (.obj es) else none := by
  cases es <;> simp [unlessEmpty, Table.find?]

theorem keys_optional : (Table.keys (optional key f o)).Sublist [key] := by
  cases o <;> simp [optional]

theorem keys_unlessEmpty : (Table.keys (unlessEmpty key es)).Sublist [key] := by
  cases es <;> simp [unlessEmpty]

theorem portable_optional {d : Nat} (h : ∀ a ∈ o, Portable d (f a)) :
    ∀ p ∈ optional key f o, Portable d p.2 := by
  cases o with
  | none => exact nofun
  | some a => simpa [optional] using h a rfl

theorem portable_unlessEmpty {d : Nat} (h : Portable d (.obj es)) :
    ∀ p ∈ unlessEmpty key es, Portable d p.2 := by
  cases es with
  | nil => exact nofun
  | cons p es => simpa [unlessEmpty] using h

end Optional

section Parts

variable {d : Nat} {p : Json.Parts} {i : Nat} {key : String}

namespace ComponentInit

theorem ofJson?_eq (j : Json) :
    ofJson? j = (Expr.componentOfJson? "name" j).map fun c => ⟨c.1, c.2⟩ := by
  rw [ofJson?.eq_def, Expr.componentOfJson?.eq_def]
  split <;> simp [Option.map_bind, Function.comp_def]

abbrev Reads (j : Json) (c : ComponentInit) : Prop := ofJson? j = some c

abbrev Stays (d : Nat) (c : ComponentInit) : Prop := Returns Reads toJson d c

abbrev StaysItems (d : Nat) (cs : List ComponentInit) : Prop :=
  Returns (Items Reads) (fun cs => .arr (cs.map toJson)) d cs

theorem faithful (d : Nat) : Json.Faithful Reads toJson d := by
  intro j c hj hc
  rw [Reads, ofJson?_eq] at hc
  obtain ⟨o, ho, rfl⟩ := Option.map_eq_some_iff.mp hc
  obtain ⟨hportable, hback⟩ :=
    (Expr.Faithful.component (by decide) fun k _ => Expr.faithful k) hj ho
  refine ⟨hportable, ?_⟩
  rw [Reads, ofJson?_eq]
  exact congrArg (Option.map _) hback

def listOfJson? : Json → Option (List ComponentInit)
  | .arr items => items.mapM ofJson?
  | _ => none

theorem listOfJson?_iff {j : Json} {cs : List ComponentInit} :
    listOfJson? j = some cs ↔ Items Reads j cs := by
  cases j with
  | arr items =>
      rw [listOfJson?, Json.forall₂_of_collect (g := List.mapM ofJson?) (r := ofJson?)]
      · simp [Items]
      · rfl
      · exact fun _ _ => List.mapM_cons
  | _ => simp [listOfJson?, Items]

end ComponentInit

namespace Json.Parts

theorem expr?_eq : p.expr? i key = (p.get? i key).elim none (Expr.ofJson? true) := by
  rw [expr?]
  cases p.get? i key <;> rfl

theorem ref?_eq : p.ref? i key = (p.get? i key).elim none EntityRef.ofJson? := by
  rw [ref?]
  cases p.get? i key with
  | none => rfl
  | some j => cases j <;> rfl

theorem fields?_eq : p.fields? i key = (p.get? i key).elim (some []) Expr.fieldsOfJson? := by
  rw [fields?]
  cases p.get? i key with
  | none => rfl
  | some j => cases j <;> rfl

theorem components?_eq :
    p.components? i key = (p.get? i key).elim (some []) ComponentInit.listOfJson? := by
  rw [components?]
  cases p.get? i key with
  | none => rfl
  | some j => cases j <;> rfl

theorem option?_held {o : Option Expr} (hget : p.get? i key = (o.map Expr.toJson).map sorted)
    (h : ∀ e ∈ o, e.Stays d) : p.option? i key = some o := by
  rw [option?, hget]
  cases o with
  | none => rfl
  | some e =>
      have hback := (h e rfl true).back
      cases he : e.toJson.sorted with
      | null =>
          rw [he] at hback
          cases hback
      | _ => simp_all

theorem fields?_held {fs : Fields Expr} {es : List (String × Json)}
    (hget : p.get? i key = (if es = [] then none else some (Json.obj es)).map sorted)
    (hes : es = fs.map fun p => (p.1, p.2.toJson)) (h : Expr.StaysFields d fs) :
    p.fields? i key = some fs := by
  rw [fields?_eq, hget, hes]
  cases fs with
  | nil => rfl
  | cons q fs => exact Expr.fieldsOfJson?_iff.mpr h.back

variable (hp : ∀ i key j, p.get? i key = some j → Parsed d j)

include hp

theorem expr?_stays {e : Expr} (h : p.expr? i key = some e) : e.Stays (d + 1) := by
  obtain ⟨j, hj, he⟩ := Option.bind_eq_some_iff.mp h
  exact Expr.faithful d (hp i key j hj) he

theorem ref?_stays {r : EntityRef} (h : p.ref? i key = some r) : r.Stays (d + 1) :=
  (Expr.faithful d).ref.elim id (hp i key) (by simp) (ref?_eq ▸ h)

theorem option?_stays {o : Option Expr} (h : p.option? i key = some o) :
    ∀ e ∈ o, e.Stays (d + 1) := by
  rw [option?.eq_def] at h
  split at h
  · obtain rfl := Option.some.inj h
    exact nofun
  · obtain rfl := Option.some.inj h
    exact nofun
  · next j _ hj =>
      obtain ⟨e, he, rfl⟩ := Option.map_eq_some_iff.mp h
      rintro _ ⟨⟩
      exact Expr.faithful d (hp i key j hj) he

theorem fields?_stays {fs : Fields Expr} (h : p.fields? i key = some fs) :
    Expr.StaysFields (d + 1) fs := by
  rw [fields?_eq] at h
  refine Json.Faithful.elim (Expr.Faithful.fields fun k _ => Expr.faithful k)
    Expr.fieldsOfJson?_iff.mp (hp i key) ?_ h
  rintro _ ⟨⟩
  exact returns_entries List.Pairwise.nil nofun

theorem components?_stays {cs : List ComponentInit} (h : p.components? i key = some cs) :
    ComponentInit.StaysItems (d + 1) cs := by
  rw [components?_eq] at h
  refine Json.Faithful.elim (.items fun k _ => ComponentInit.faithful k)
    ComponentInit.listOfJson?_iff.mp (hp i key) ?_ h
  rintro _ ⟨⟩
  exact returns_items nofun

end Json.Parts

end Parts

theorem ModifyOp.ofName?_name (op : ModifyOp) : ofName? op.name = some op := by cases op <;> rfl

namespace Action

variable {d : Nat}

abbrev Reads (j : Json) (a : Action) : Prop := ofJson? true j = some a

def Stays (d : Nat) (a : Action) : Prop :=
  ∀ nested, Returns (fun j a => ofJson? nested j = some a) toJson d a

abbrev StaysItems (d : Nat) (as : List Action) : Prop :=
  Returns (Items Reads) (fun as => .arr (as.map toJson)) d as

def Faithful (d : Nat) : Prop :=
  ∀ ⦃nested : Bool⦄ ⦃j : Json⦄ ⦃a : Action⦄, Parsed d j → ofJson? nested j = some a →
    a.Stays (d + 1)

theorem toJsonItems_eq (as : List Action) : toJsonItems as = as.map toJson := by
  induction as with
  | nil => rfl
  | cons a as ih => rw [toJsonItems, ih, List.map_cons]

theorem toJson_branch (c : Expr) (t : List Action) (o : Option (List Action)) :
    toJson (branch c t o) =
      node "conditional" (("condition", c.toJson) :: ("then_actions", .arr (t.map toJson)) ::
        optional "else_actions" (fun as => .arr (as.map toJson)) o) := by
  cases o <;> simp only [toJson, toJsonItems_eq, optional]

theorem listOfJson?_iff {j : Json} {as : List Action} :
    listOfJson? j = some as ↔ Items Reads j as := by
  cases j with
  | arr items =>
      rw [listOfJson?, Json.forall₂_of_collect (g := ofItems?) (r := ofJson? true)]
      · simp [Items]
      · rfl
      · exact fun _ _ => rfl
  | _ => simp [listOfJson?, Items]

theorem stays_of_node {a : Action} {kind : String} {entries : List (String × Json)}
    (ha : a.toJson = node kind entries) (hkeys : ("type" :: Table.keys entries).Nodup)
    (hentries : ∀ p ∈ entries, Portable d p.2)
    (hback : ∀ p, Json.Parts.Holds p kind entries → ofParts? kind p.ofAction = some a) :
    a.Stays (d + 1) :=
  fun nested => Json.returns_node (f := fun kind p => ofParts? kind p.ofAction) (ofJson?_eq nested)
    ha hkeys hentries hback

theorem stays_modify {r : EntityRef} {e : Expr} (hr : r.Stays d) (c f : String) (op : ModifyOp)
    (he : e.Stays d) : (modify r c f op e).Stays (d + 1) := by
  refine stays_of_node rfl (by simp) ?_ fun p hp => ?_
  · simpa using ⟨hr.portable, (he true).portable⟩
  · simp [hp, Parts.ofAction, Parts.text?, Parts.ref?_eq, Parts.expr?_eq,
      Parts.modifyOp?, Json.name?, Json.str?, Table.find?, hr.back, (he true).back,
      ModifyOp.ofName?_name]

theorem stays_despawn {r : EntityRef} (hr : r.Stays d) : (despawn r).Stays (d + 1) := by
  refine stays_of_node rfl (by simp) (by simpa using hr.portable) fun p hp => ?_
  simp [hp, Parts.ofAction, Parts.ref?_eq, Table.find?, hr.back]

theorem stays_spawn {cs : List ComponentInit} (h : ComponentInit.StaysItems d cs) :
    (spawn cs).Stays (d + 1) := by
  refine stays_of_node rfl (by simp) (by simpa using h.portable) fun p hp => ?_
  simp [hp, Parts.ofAction, Parts.components?_eq, Table.find?,
    ComponentInit.listOfJson?_iff.mpr h.back]

theorem stays_addComponent {r : EntityRef} {c : ComponentInit} (hr : r.Stays d) (hc : c.Stays d) :
    (addComponent r c).Stays (d + 1) := by
  refine stays_of_node rfl (by simp) ?_ fun p hp => ?_
  · simpa using ⟨hr.portable, hc.portable⟩
  · simp [hp, Parts.ofAction, Parts.ref?_eq, Table.find?, hr.back, hc.back]

theorem stays_removeComponent {r : EntityRef} (hr : r.Stays d) (c : String) :
    (removeComponent r c).Stays (d + 1) := by
  refine stays_of_node rfl (by simp) (by simpa using hr.portable) fun p hp => ?_
  simp [hp, Parts.ofAction, Parts.ref?_eq, Parts.text?, Json.str?, Table.find?,
    hr.back]

theorem stays_bind (name : String) {e : Expr} (he : e.Stays d) : (bind name e).Stays (d + 1) := by
  refine stays_of_node rfl (by simp) (by simpa using (he true).portable) fun p hp => ?_
  simp [hp, Parts.ofAction, Parts.expr?_eq, Parts.text?, Json.str?,
    Table.find?, (he true).back]

theorem stays_repeatWhile {c : Expr} {body : List Action} (hc : c.Stays d)
    (hb : StaysItems d body) : (repeatWhile c body).Stays (d + 1) := by
  refine stays_of_node (by rw [toJson, toJsonItems_eq]) (by simp) ?_ fun p hp => ?_
  · simpa using ⟨(hc true).portable, hb.portable⟩
  · simp [hp, Parts.ofAction, Parts.expr?_eq, Table.find?, (hc true).back,
      listOfJson?_iff.mpr hb.back]

theorem stays_each (x : String) {items : Expr} {body : List Action} (hi : items.Stays d)
    (hb : StaysItems d body) : (each x items body).Stays (d + 1) := by
  refine stays_of_node (by rw [toJson, toJsonItems_eq]) (by simp) ?_ fun p hp => ?_
  · simpa using ⟨(hi true).portable, hb.portable⟩
  · simp [hp, Parts.ofAction, Parts.expr?_eq, Parts.text?, Json.str?,
      Table.find?, (hi true).back, listOfJson?_iff.mpr hb.back]

theorem optionOfJson?_back {as : List Action} (h : StaysItems d as) :
    optionOfJson? (Json.arr (as.map toJson)).sorted = some (some as) := by
  have hback := listOfJson?_iff.mpr h.back
  rw [Json.sorted_arr, listOfJson?] at hback
  rw [Json.sorted_arr, optionOfJson?, hback]
  rfl

theorem stays_branch {c : Expr} {t : List Action} {o : Option (List Action)} (hc : c.Stays d)
    (ht : StaysItems d t) (ho : ∀ as ∈ o, StaysItems d as) : (branch c t o).Stays (d + 1) := by
  refine stays_of_node (toJson_branch c t o) ?_ ?_ fun p hp => ?_
  · have hkeys : (["type", "condition", "then_actions", "else_actions"]).Nodup := by decide
    exact hkeys.sublist (by simpa using keys_optional)
  · simp only [List.forall_mem_cons]
    exact ⟨(hc true).portable, ht.portable, portable_optional fun as has => (ho as has).portable⟩
  · have hthen := listOfJson?_iff.mpr ht.back
    cases o with
    | none =>
        simp [hp, Parts.ofAction, Parts.expr?_eq, Table.find?, (hc true).back, hthen]
    | some as =>
        simp [hp, Parts.ofAction, Parts.expr?_eq, Table.find?, (hc true).back, hthen,
          optionOfJson?_back (ho as rfl)]

end Action

structure EventSpec.Stays (d : Nat) (s : EventSpec) : Prop where
  source : ∀ e ∈ s.source, e.Stays d
  target : ∀ e ∈ s.target, e.Stays d
  fields : Expr.StaysFields d s.fields

namespace EventSpec

variable {d : Nat} {s : EventSpec}

theorem keys_entries (s : EventSpec) :
    (Table.keys s.entries).Sublist ["source", "target", "fields"] := by
  rw [entries, Table.keys_append, Table.keys_append]
  exact (keys_optional.append keys_optional).append keys_unlessEmpty

theorem Stays.portable (h : s.Stays d) : ∀ p ∈ s.entries, Portable d p.2 := by
  simp only [entries, List.forall_mem_append]
  refine ⟨⟨portable_optional fun e he => (h.source e he true).portable,
    portable_optional fun e he => (h.target e he true).portable⟩, portable_unlessEmpty ?_⟩
  rw [Expr.toJsonFields_eq]
  exact h.fields.portable

end EventSpec

namespace Action

variable {d : Nat}

theorem held_source {s : EventSpec} (h : s.Stays d) {p : Json.Parts} {i : Nat}
    (hget : p.get? i "source" = (Table.find? s.entries "source").map Json.sorted) :
    p.option? i "source" = some s.source :=
  Parts.option?_held (by simpa [EventSpec.entries, Table.find?_append] using hget) h.source

theorem held_target {s : EventSpec} (h : s.Stays d) {p : Json.Parts} {i : Nat}
    (hget : p.get? i "target" = (Table.find? s.entries "target").map Json.sorted) :
    p.option? i "target" = some s.target :=
  Parts.option?_held (by simpa [EventSpec.entries, Table.find?_append] using hget) h.target

theorem held_fields {s : EventSpec} (h : s.Stays d) {p : Json.Parts} {i : Nat}
    (hget : p.get? i "fields" = (Table.find? s.entries "fields").map Json.sorted) :
    p.fields? i "fields" = some s.fields :=
  Parts.fields?_held (by simpa [EventSpec.entries, Table.find?_append] using hget)
    (Expr.toJsonFields_eq _) h.fields

theorem stays_emit {s : EventSpec} (h : s.Stays d) : (emit s).Stays (d + 1) := by
  refine stays_of_node rfl ?_ ?_ fun p hp => ?_
  · have hkeys : (["type", "event", "source", "target", "fields"]).Nodup := by decide
    exact hkeys.sublist (by simpa using s.keys_entries)
  · exact List.forall_mem_cons.mpr ⟨portable_str _, h.portable⟩
  · have hsource := held_source h (hp 1 "source")
    have htarget := held_target h (hp 2 "target")
    have hfields := held_fields h (hp 3 "fields")
    simp [hp, Parts.ofAction, Parts.text?, Json.str?, Table.find?, hsource, htarget,
      hfields]

theorem stays_schedule {s : EventSpec} (h : s.Stays d) {delay interval : Option Expr}
    (hd : ∀ e ∈ delay, e.Stays d) (hi : ∀ e ∈ interval, e.Stays d) :
    (schedule s delay interval).Stays (d + 1) := by
  refine stays_of_node rfl ?_ ?_ fun p hp => ?_
  · have hkeys : (["type", "event", "delay", "source", "target", "fields", "interval"]).Nodup := by
      decide
    refine hkeys.sublist ?_
    simpa using (keys_optional.append s.keys_entries).append keys_optional
  · simp only [List.forall_mem_cons, List.forall_mem_append, List.cons_append]
    exact ⟨portable_str _, ⟨portable_optional fun e he => (hd e he true).portable, h.portable⟩,
      portable_optional fun e he => (hi e he true).portable⟩
  · have hdelay : p.option? 1 "delay" = some delay :=
      Parts.option?_held (by simp [hp, EventSpec.entries, Table.find?, Table.find?_append]) hd
    have hinterval : p.option? 5 "interval" = some interval :=
      Parts.option?_held (by simp [hp, EventSpec.entries, Table.find?, Table.find?_append]) hi
    have hsource : p.option? 2 "source" = some s.source :=
      held_source h (by simp [hp, Table.find?, Table.find?_append])
    have htarget : p.option? 3 "target" = some s.target :=
      held_target h (by simp [hp, Table.find?, Table.find?_append])
    have hfields : p.fields? 4 "fields" = some s.fields :=
      held_fields h (by simp [hp, Table.find?, Table.find?_append])
    simp [hp, Parts.ofAction, Parts.text?, Json.str?, Table.find?, hdelay, hinterval,
      hsource, htarget, hfields]

section

variable {p : Json.Parts} {i : Nat} {key : String} (h : ∀ k ≤ d, Faithful k)
  (hp : ∀ i key j, p.get? i key = some j → Parsed d j)

include h

theorem Faithful.items : Json.Faithful (Items Reads) (fun as => .arr (as.map toJson)) d :=
  Json.Faithful.items fun k hk _ _ hj ha => h k hk.le hj ha true

include hp

theorem actions?_stays {as : List Action} (has : p.ofAction.actions? i key = some as) :
    StaysItems (d + 1) as := by
  refine (Faithful.items h).elim listOfJson?_iff.mp (hp i key) ?_ has
  rintro _ ⟨⟩
  exact returns_items nofun

theorem optional?_stays {o : Option (List Action)} (ho : p.ofAction.optional? i key = some o) :
    ∀ as ∈ o, StaysItems (d + 1) as := by
  cases hj : p.get? i key with
  | none =>
      simp only [Parts.ofAction, hj, Option.elim_none, Option.some.injEq] at ho
      subst o
      exact nofun
  | some j =>
      simp only [Parts.ofAction, hj, Option.elim_some] at ho
      rw [optionOfJson?.eq_def] at ho
      split at ho
      · next items =>
          obtain ⟨as, has, rfl⟩ := Option.map_eq_some_iff.mp ho
          rintro _ ⟨⟩
          exact Faithful.items h (hp i key _ hj) (listOfJson?_iff.mp has)
      · obtain rfl := Option.some.inj ho
        exact nofun
      · cases ho

theorem stays_of_parts {kind : String} {a : Action} (ha : ofParts? kind p.ofAction = some a) :
    a.Stays (d + 2) := by
  rw [ofParts?.eq_def] at ha
  split at ha
  all_goals
    simp only [Option.pure_def, Option.bind_eq_bind, Option.bind_eq_some_iff, Option.some.injEq,
      Option.map_eq_some_iff, reduceCtorEq] at ha
  · obtain ⟨r, hr, c, -, f, -, op, -, e, he, rfl⟩ := ha
    exact stays_modify (Parts.ref?_stays hp hr) c f op (Parts.expr?_stays hp he)
  · obtain ⟨event, -, source, hs, target, ht, fields, hf, delay, hd, interval, hi, rfl⟩ := ha
    have hspec : EventSpec.Stays (d + 1) ⟨event, source, target, fields⟩ :=
      ⟨Parts.option?_stays hp hs, Parts.option?_stays hp ht, Parts.fields?_stays hp hf⟩
    exact stays_schedule hspec (Parts.option?_stays hp hd) (Parts.option?_stays hp hi)
  · obtain ⟨event, -, source, hs, target, ht, fields, hf, rfl⟩ := ha
    have hspec : EventSpec.Stays (d + 1) ⟨event, source, target, fields⟩ :=
      ⟨Parts.option?_stays hp hs, Parts.option?_stays hp ht, Parts.fields?_stays hp hf⟩
    exact stays_emit hspec
  · obtain ⟨cs, hcs, rfl⟩ := ha
    exact stays_spawn (Parts.components?_stays hp hcs)
  · obtain ⟨r, hr, rfl⟩ := ha
    exact stays_despawn (Parts.ref?_stays hp hr)
  · obtain ⟨r, hr, c, ⟨j, hj, hc⟩, rfl⟩ := ha
    exact stays_addComponent (Parts.ref?_stays hp hr)
      (ComponentInit.faithful d (hp 1 "component" j hj) hc)
  · obtain ⟨r, hr, c, -, rfl⟩ := ha
    exact stays_removeComponent (Parts.ref?_stays hp hr) c
  · obtain ⟨c, hc, t, ht, o, ho, rfl⟩ := ha
    exact stays_branch (Parts.expr?_stays hp hc) (actions?_stays h hp ht)
      (optional?_stays h hp ho)
  · obtain ⟨x, -, items, hi, body, hb, rfl⟩ := ha
    exact stays_each x (Parts.expr?_stays hp hi) (actions?_stays h hp hb)
  · obtain ⟨name, -, e, he, rfl⟩ := ha
    exact stays_bind name (Parts.expr?_stays hp he)
  · obtain ⟨c, hc, body, hb, rfl⟩ := ha
    exact stays_repeatWhile (Parts.expr?_stays hp hc) (actions?_stays h hp hb)

end

/-- What is read as an action comes back, whatever its depth. -/
theorem faithful (d : Nat) : Faithful d := by
  induction d using Nat.strong_induction_on with
  | h d ih =>
      intro nested j a hj ha
      rw [ofJson?_eq] at ha
      obtain ⟨n, hn, ha⟩ := Option.bind_eq_some_iff.mp ha
      obtain ⟨k, rfl, hparts⟩ := hj.node? hn
      exact stays_of_parts (fun l hl => ih l (Nat.lt_succ_of_le hl)) hparts ha

end Action

end RuleSim
