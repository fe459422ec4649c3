import Mathlib.Data.Option.Basic
import RuleSim.Expr.Reading

namespace RuleSim

open Json (kind? strAt? Parts)

def Json.node? (kinds : List (String × Nat)) (nested : Bool) : Json → Option (String × Parts)
  | .obj es => ((Table.find? es "type").bind (kind? (kinds.map (·.1)) nested)).map (·, .ofObject es)
  | .arr (tag :: items) =>
    (kind? (kinds.map (·.1)) nested tag).bind fun kind =>
      if (Parts.ofArray items).fit kinds kind then some (kind, .ofArray items) else none
  | _ => none

theorem guard_bind {α : Type} (c : Prop) [Decidable c] (f : Unit → Option α) :
    (guard c >>= f) = if c then f () else none := by
  change ((if c then pure () else failure) >>= f) = _
  split <;> rfl

def EntityRef.ofJson? : Json → Option EntityRef
  | .str s => some (.named s)
  | j => (Expr.ofJson? true j).map .computed

def Expr.listOfJson? : Json → Option (List Expr)
  | .arr items => Expr.ofItems? items
  | _ => none

def Expr.fieldsOfJson? : Json → Option (Fields Expr)
  | .obj es => Expr.ofFields? es
  | _ => none

def Expr.componentOfJson? (key : String) : Json → Option (String × Fields Expr)
  | .obj es => do return (← strAt? es key, ← Expr.fieldsAt? "fields" es)
  | .arr [.str c] => some (c, [])
  | .arr [.str c, .obj es] => (Expr.ofFields? es).map (c, ·)
  | _ => none

def Expr.overridesOfJson? : Json → Option (List (String × Fields Expr))
  | .arr items => Expr.ofOverrides? items
  | _ => none

theorem Table.elim_of_scan {κ α β : Type} [DecidableEq κ] {key : κ} {g : Table κ α → β}
    {absent : β} {r : α → β} (hnil : g [] = absent)
    (hcons : ∀ k a t, g ((k, a) :: t) = if key = k then r a else g t) (t : Table κ α) :
    g t = (t.find? key).elim absent r := by
  induction t with
  | nil => exact hnil
  | cons p t ih =>
      rw [hcons, find?, ih]
      split <;> rfl

theorem Json.elim_of_scan {α : Type} {g : Nat → List Json → α} {absent : α} {r : Json → α}
    (hnil : ∀ i, g i [] = absent) (hzero : ∀ j js, g 0 (j :: js) = r j)
    (hsucc : ∀ i j js, g (i + 1) (j :: js) = g i js) (i : Nat) (items : List Json) :
    g i items = items[i]?.elim absent r := by
  induction items generalizing i with
  | nil => exact hnil i
  | cons j items ih =>
      cases i with
      | zero => exact hzero j items
      | succ i => rw [hsucc, ih, List.getElem?_cons_succ]

theorem Expr.at?_eq (key : String) (es : List (String × Json)) :
    Expr.at? key es = (Table.find? es key).elim none (Expr.ofJson? true) :=
  Table.elim_of_scan rfl (fun _ _ _ => by rw [Expr.at?]) es

theorem Expr.nth?_eq (i : Nat) (items : List Json) :
    Expr.nth? i items = items[i]?.elim none (Expr.ofJson? true) :=
  Json.elim_of_scan (fun i => by cases i <;> rfl) (fun _ _ => rfl) (fun _ _ _ => by rw [nth?]) i
    items

theorem EntityRef.at?_eq (key : String) (es : List (String × Json)) :
    EntityRef.at? key es = (Table.find? es key).elim none EntityRef.ofJson? :=
  Table.elim_of_scan rfl (fun _ j _ => by cases j <;> simp [at?, EntityRef.ofJson?]) es

theorem EntityRef.nth?_eq (i : Nat) (items : List Json) :
    EntityRef.nth? i items = items[i]?.elim none EntityRef.ofJson? :=
  Json.elim_of_scan (fun i => by cases i <;> rfl) (fun j _ => by cases j <;> rfl)
    (fun _ _ _ => by rw [nth?]) i items

theorem Expr.itemsAt?_eq (key : String) (es : List (String × Json)) :
    Expr.itemsAt? key es = (Table.find? es key).elim (some []) Expr.listOfJson? :=
  Table.elim_of_scan rfl (fun _ j _ => by cases j <;> simp [itemsAt?, listOfJson?]) es

theorem Expr.itemsNth?_eq (i : Nat) (items : List Json) :
    Expr.itemsNth? i items = items[i]?.elim (some []) Expr.listOfJson? :=
  Json.elim_of_scan (fun i => by cases i <;> rfl) (fun j _ => by cases j <;> rfl)
    (fun _ _ _ => by rw [itemsNth?]) i items

theorem Expr.fieldsAt?_eq (key : String) (es : List (String × Json)) :
    Expr.fieldsAt? key es = (Table.find? es key).elim (some []) Expr.fieldsOfJson? :=
  Table.elim_of_scan rfl (fun _ j _ => by cases j <;> simp [fieldsAt?, fieldsOfJson?]) es

theorem Expr.overridesAt?_eq (key : String) (es : List (String × Json)) :
    Expr.overridesAt? key es = (Table.find? es key).elim (some []) Expr.overridesOfJson? :=
  Table.elim_of_scan rfl (fun _ j _ => by cases j <;> simp [overridesAt?, overridesOfJson?]) es

theorem Expr.overridesNth?_eq (i : Nat) (items : List Json) :
    Expr.overridesNth? i items = items[i]?.elim (some []) Expr.overridesOfJson? :=
  Json.elim_of_scan (fun i => by cases i <;> rfl) (fun j _ => by cases j <;> rfl)
    (fun _ _ _ => by rw [overridesNth?]) i items

def Json.Parts.ofExpr (p : Json.Parts) : Expr.Parts where
  toParts := p
  expr? i key := (p.get? i key).elim none (Expr.ofJson? true)
  ref? i key := (p.get? i key).elim none EntityRef.ofJson?
  exprs? i key := (p.get? i key).elim (some []) Expr.listOfJson?
  overrides? i key := (p.get? i key).elim (some []) Expr.overridesOfJson?

theorem Expr.ofJson?_eq (nested : Bool) (j : Json) :
    Expr.ofJson? nested j =
      (j.node? Expr.kinds nested).bind fun n => Expr.ofParts? n.1 n.2.ofExpr := by
  cases j with
  | null | bool | int | float | str => rfl
  | obj es =>
      rw [Expr.ofJson?, Json.node?]
      simp only [Expr.at?_eq, EntityRef.at?_eq, Expr.itemsAt?_eq, Expr.overridesAt?_eq]
      cases (Table.find? es "type").bind (kind? (Expr.kinds.map (·.1)) nested) <;> rfl
  | arr items =>
      cases items with
      | nil => rfl
      | cons tag items =>
          rw [Expr.ofJson?, Json.node?]
          cases kind? (Expr.kinds.map (·.1)) nested tag with
          | none => rfl
          | some kind =>
              change guard ((Parts.ofArray items).fit Expr.kinds kind = true) >>=
                (fun _ => Expr.ofParts? kind _) = _
              rw [guard_bind, Option.bind_some]
              simp only [Expr.nth?_eq, EntityRef.nth?_eq, Expr.itemsNth?_eq, Expr.overridesNth?_eq]
              split <;> rfl

def Action.listOfJson? : Json → Option (List Action)
  | .arr items => Action.ofItems? items
  | _ => none

def Action.optionOfJson? : Json → Option (Option (List Action))
  | .arr items => (Action.ofItems? items).map some
  | .null => some none
  | _ => none

theorem Action.itemsAt?_eq (key : String) (es : List (String × Json)) :
    Action.itemsAt? key es = (Table.find? es key).elim (some []) Action.listOfJson? :=
  Table.elim_of_scan rfl (fun _ j _ => by cases j <;> simp [itemsAt?, listOfJson?]) es

theorem Action.itemsNth?_eq (i : Nat) (items : List Json) :
    Action.itemsNth? i items = items[i]?.elim (some []) Action.listOfJson? :=
  Json.elim_of_scan (fun i => by cases i <;> rfl) (fun j _ => by cases j <;> rfl)
    (fun _ _ _ => by rw [itemsNth?]) i items

theorem Action.optionAt?_eq (key : String) (es : List (String × Json)) :
    Action.optionAt? key es = (Table.find? es key).elim (some none) Action.optionOfJson? :=
  Table.elim_of_scan rfl (fun _ j _ => by cases j <;> simp [optionAt?, optionOfJson?]) es

theorem Action.optionNth?_eq (i : Nat) (items : List Json) :
    Action.optionNth? i items = items[i]?.elim (some none) Action.optionOfJson? :=
  Json.elim_of_scan (fun i => by cases i <;> rfl) (fun j _ => by cases j <;> rfl)
    (fun _ _ _ => by rw [optionNth?]) i items

def Json.Parts.ofAction (p : Json.Parts) : Action.Parts where
  toParts := p
  actions? i key := (p.get? i key).elim (some []) Action.listOfJson?
  optional? i key := (p.get? i key).elim (some none) Action.optionOfJson?

theorem Action.ofJson?_eq (nested : Bool) (j : Json) :
    Action.ofJson? nested j =
      (j.node? Action.kinds nested).bind fun n => Action.ofParts? n.1 n.2.ofAction := by
  cases j with
  | null | bool | int | float | str => rfl
  | obj es =>
      rw [Action.ofJson?, Json.node?]
      simp only [Action.itemsAt?_eq, Action.optionAt?_eq]
      cases (Table.find? es "type").bind (kind? (Action.kinds.map (·.1)) nested) <;> rfl
  | arr items =>
      cases items with
      | nil => rfl
      | cons tag items =>
          rw [Action.ofJson?, Json.node?]
          cases kind? (Action.kinds.map (·.1)) nested tag with
          | none => rfl
          | some kind =>
              change guard ((Parts.ofArray items).fit Action.kinds kind = true) >>=
                (fun _ => Action.ofParts? kind _) = _
              rw [guard_bind, Option.bind_some]
              simp only [Action.itemsNth?_eq, Action.optionNth?_eq]
              split <;> rfl

end RuleSim
