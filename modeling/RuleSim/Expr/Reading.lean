import RuleSim.Expr

namespace RuleSim

namespace Json

def str? : Json → Option String
  | .str s => some s
  | _ => none

/-- A choice among names: the name, or an object with the name and nothing more. -/
def name? : Json → Option String
  | .str s => some s
  | .obj [(s, .null)] => some s
  | .obj [(s, .obj [])] => some s
  | _ => none

/-- A choice among names that is not inside a node: the object may only say null of the name. -/
def bareName? : Json → Option String
  | .str s => some s
  | .obj [(s, .null)] => some s
  | _ => none

def strAt? (entries : List (String × Json)) (key : String) : Option String :=
  (Table.find? entries key).bind str?

/-- The kind that a tag names. Inside another node its number stands for a kind, too. -/
def kind? (kinds : List String) (nested : Bool) : Json → Option String
  | .str s => some s
  | .int n => if nested && 0 ≤ n then kinds[n.toNat]? else none
  | _ => none

/-- The parts of a node: by key in an object, by position in an array. -/
structure Parts where
  get? : Nat → String → Option Json
  atMost : Nat → Bool

namespace Parts

def ofObject (entries : List (String × Json)) : Parts :=
  ⟨fun _ key => Table.find? entries key, fun _ => true⟩

def ofArray (items : List Json) : Parts := ⟨fun i _ => items[i]?, fun n => items.length ≤ n⟩

def text? (p : Parts) (i : Nat) (key : String) : Option String := (p.get? i key).bind str?

def name? (p : Parts) (i : Nat) (key : String) : Option String := (p.get? i key).bind Json.name?

end Parts

end Json

open Json (strAt? kind? Parts)

/-- The parts of an expression, read in all the ways in which a kind may ask for them. -/
structure Expr.Parts extends Json.Parts where
  expr? : Nat → String → Option Expr
  ref? : Nat → String → Option EntityRef
  exprs? : Nat → String → Option (List Expr)
  overrides? : Nat → String → Option (List (String × List (String × Expr)))

def Expr.kinds : List (String × Nat) :=
  [("literal", 1), ("var", 1), ("param", 1), ("field", 3), ("binary", 3), ("unary", 2), ("call", 2),
    ("if", 3), ("clone", 2), ("bound_call", 3)]

@[simp] def Expr.ofParts? (kind : String) (p : Expr.Parts) : Option Expr :=
  match kind with
  | "literal" => some (.literal (((p.get? 0 "value").map Value.ofJson).getD .null))
  | "var" => (p.text? 0 "name").map .var
  | "param" => (p.text? 0 "name").map .param
  | "field" => do
    return .field (← p.ref? 0 "entity") (← p.text? 1 "component") (← p.text? 2 "field")
  | "binary" => do
    return .binary (← (p.name? 0 "op").bind BinaryOp.ofName?) (← p.expr? 1 "left")
      (← p.expr? 2 "right")
  | "unary" => do
    return .unary (← (p.name? 0 "op").bind UnaryOp.ofName?) (← p.expr? 1 "expr")
  | "call" => do return .call (← p.text? 0 "function") (← p.exprs? 1 "args")
  | "if" => do
    return .choice (← p.expr? 0 "condition") (← p.expr? 1 "then") (← p.expr? 2 "else")
  | "clone" => do return .clone (← p.ref? 0 "entity") (← p.overrides? 1 "overrides")
  | "bound_call" => do
    return .boundCall (← p.ref? 0 "entity") (← p.text? 1 "function") (← p.exprs? 2 "args")
  | _ => none

def Json.Parts.fit (p : Json.Parts) (kinds : List (String × Nat)) (kind : String) : Bool :=
  (Table.find? kinds kind).all p.atMost

mutual

def Expr.ofJson? (nested : Bool) : Json → Option Expr
  | .obj es => do
    let kind ← (Table.find? es "type").bind (kind? (Expr.kinds.map (·.1)) nested)
    Expr.ofParts? kind {
      toParts := .ofObject es
      expr? := fun _ key => Expr.at? key es
      ref? := fun _ key => EntityRef.at? key es
      exprs? := fun _ key => Expr.itemsAt? key es
      overrides? := fun _ key => Expr.overridesAt? key es }
  | .arr (tag :: items) => do
    let kind ← kind? (Expr.kinds.map (·.1)) nested tag
    guard ((Parts.ofArray items).fit Expr.kinds kind)
    Expr.ofParts? kind {
      toParts := .ofArray items
      expr? := fun i _ => Expr.nth? i items
      ref? := fun i _ => EntityRef.nth? i items
      exprs? := fun i _ => Expr.itemsNth? i items
      overrides? := fun i _ => Expr.overridesNth? i items }
  | _ => none

def Expr.at? (key : String) : List (String × Json) → Option Expr
  | [] => none
  | (k, j) :: rest => if key = k then Expr.ofJson? true j else Expr.at? key rest

def Expr.nth? : Nat → List Json → Option Expr
  | _, [] => none
  | 0, j :: _ => Expr.ofJson? true j
  | i + 1, _ :: rest => Expr.nth? i rest

def EntityRef.at? (key : String) : List (String × Json) → Option EntityRef
  | [] => none
  | (k, .str s) :: rest => if key = k then some (.named s) else EntityRef.at? key rest
  | (k, j) :: rest =>
    if key = k then (Expr.ofJson? true j).map .computed else EntityRef.at? key rest

def EntityRef.nth? : Nat → List Json → Option EntityRef
  | _, [] => none
  | 0, .str s :: _ => some (.named s)
  | 0, j :: _ => (Expr.ofJson? true j).map .computed
  | i + 1, _ :: rest => EntityRef.nth? i rest

def Expr.itemsAt? (key : String) : List (String × Json) → Option (List Expr)
  | [] => some []
  | (k, .arr items) :: rest => if key = k then Expr.ofItems? items else Expr.itemsAt? key rest
  | (k, _) :: rest => if key = k then none else Expr.itemsAt? key rest

def Expr.itemsNth? : Nat → List Json → Option (List Expr)
  | _, [] => some []
  | 0, .arr items :: _ => Expr.ofItems? items
  | 0, _ :: _ => none
  | i + 1, _ :: rest => Expr.itemsNth? i rest

def Expr.ofItems? : List Json → Option (List Expr)
  | [] => some []
  | j :: js => do
    let e ← Expr.ofJson? true j
    return e :: (← Expr.ofItems? js)

def Expr.fieldsAt? (key : String) : List (String × Json) → Option (List (String × Expr))
  | [] => some []
  | (k, .obj entries) :: rest => if key = k then Expr.ofFields? entries else Expr.fieldsAt? key rest
  | (k, _) :: rest => if key = k then none else Expr.fieldsAt? key rest

def Expr.ofFields? : List (String × Json) → Option (List (String × Expr))
  | [] => some []
  | (k, j) :: rest => do
    let e ← Expr.ofJson? true j
    return (k, e) :: (← Expr.ofFields? rest)

def Expr.overridesAt? (key : String) :
    List (String × Json) → Option (List (String × List (String × Expr)))
  | [] => some []
  | (k, .arr items) :: rest =>
    if key = k then Expr.ofOverrides? items else Expr.overridesAt? key rest
  | (k, _) :: rest => if key = k then none else Expr.overridesAt? key rest

def Expr.overridesNth? : Nat → List Json → Option (List (String × List (String × Expr)))
  | _, [] => some []
  | 0, .arr items :: _ => Expr.ofOverrides? items
  | 0, _ :: _ => none
  | i + 1, _ :: rest => Expr.overridesNth? i rest

def Expr.ofOverrides? : List Json → Option (List (String × List (String × Expr)))
  | [] => some []
  | .obj es :: rest => do
    let c ← strAt? es "component"
    let fields ← Expr.fieldsAt? "fields" es
    return (c, fields) :: (← Expr.ofOverrides? rest)
  | .arr [.str c] :: rest => do return (c, []) :: (← Expr.ofOverrides? rest)
  | .arr [.str c, .obj es] :: rest => do
    let fields ← Expr.ofFields? es
    return (c, fields) :: (← Expr.ofOverrides? rest)
  | _ :: _ => none

end

def ComponentInit.ofJson? : Json → Option ComponentInit
  | .obj es => do return ⟨← strAt? es "name", ← Expr.fieldsAt? "fields" es⟩
  | .arr [.str name] => some ⟨name, []⟩
  | .arr [.str name, .obj es] => (Expr.ofFields? es).map (⟨name, ·⟩)
  | _ => none

namespace Json.Parts

def expr? (p : Parts) (i : Nat) (key : String) : Option Expr :=
  (p.get? i key).bind (Expr.ofJson? true)

def ref? (p : Parts) (i : Nat) (key : String) : Option EntityRef :=
  match p.get? i key with
  | none => none
  | some (.str s) => some (.named s)
  | some j => (Expr.ofJson? true j).map .computed

def option? (p : Parts) (i : Nat) (key : String) : Option (Option Expr) :=
  match p.get? i key with
  | none | some .null => some none
  | some j => (Expr.ofJson? true j).map some

def fields? (p : Parts) (i : Nat) (key : String) : Option (Fields Expr) :=
  match p.get? i key with
  | none => some []
  | some (.obj es) => Expr.ofFields? es
  | some _ => none

def components? (p : Parts) (i : Nat) (key : String) : Option (List ComponentInit) :=
  match p.get? i key with
  | none => some []
  | some (.arr items) => items.mapM ComponentInit.ofJson?
  | some _ => none

def modifyOp? (p : Parts) (i : Nat) (key : String) : Option ModifyOp :=
  match p.get? i key with
  | none => some .set
  | some j => j.name?.bind ModifyOp.ofName?

end Json.Parts

structure Action.Parts extends Json.Parts where
  actions? : Nat → String → Option (List Action)
  optional? : Nat → String → Option (Option (List Action))

def Action.kinds : List (String × Nat) :=
  [("modify", 5), ("schedule", 6), ("emit", 4), ("spawn", 1), ("despawn", 1), ("add_component", 2),
    ("remove_component", 2), ("conditional", 3), ("loop", 3), ("let", 2), ("while", 2)]

@[simp] def Action.ofParts? (kind : String) (p : Action.Parts) : Option Action :=
  match kind with
  | "modify" => do
    return .modify (← p.ref? 0 "entity") (← p.text? 1 "component") (← p.text? 2 "field")
      (← p.modifyOp? 3 "op") (← p.expr? 4 "value")
  | "schedule" => do
    let spec : EventSpec := ⟨← p.text? 0 "event", ← p.option? 2 "source", ← p.option? 3 "target",
      ← p.fields? 4 "fields"⟩
    return .schedule spec (← p.option? 1 "delay") (← p.option? 5 "interval")
  | "emit" => do
    return .emit ⟨← p.text? 0 "event", ← p.option? 1 "source", ← p.option? 2 "target",
      ← p.fields? 3 "fields"⟩
  | "spawn" => (p.components? 0 "components").map .spawn
  | "despawn" => (p.ref? 0 "entity").map .despawn
  | "add_component" => do
    return .addComponent (← p.ref? 0 "entity")
      (← (p.get? 1 "component").bind ComponentInit.ofJson?)
  | "remove_component" => do return .removeComponent (← p.ref? 0 "entity") (← p.text? 1 "component")
  | "conditional" => do
    return .branch (← p.expr? 0 "condition") (← p.actions? 1 "then_actions")
      (← p.optional? 2 "else_actions")
  | "loop" => do
    return .each (← p.text? 0 "variable") (← p.expr? 1 "iterable") (← p.actions? 2 "body")
  | "let" => do return .bind (← p.text? 0 "name") (← p.expr? 1 "value")
  | "while" => do return .repeatWhile (← p.expr? 0 "condition") (← p.actions? 1 "body")
  | _ => none

mutual

def Action.ofJson? (nested : Bool) : Json → Option Action
  | .obj es => do
    let kind ← (Table.find? es "type").bind (kind? (Action.kinds.map (·.1)) nested)
    Action.ofParts? kind {
      toParts := .ofObject es
      actions? := fun _ key => Action.itemsAt? key es
      optional? := fun _ key => Action.optionAt? key es }
  | .arr (tag :: items) => do
    let kind ← kind? (Action.kinds.map (·.1)) nested tag
    guard ((Parts.ofArray items).fit Action.kinds kind)
    Action.ofParts? kind {
      toParts := .ofArray items
      actions? := fun i _ => Action.itemsNth? i items
      optional? := fun i _ => Action.optionNth? i items }
  | _ => none

def Action.itemsAt? (key : String) : List (String × Json) → Option (List Action)
  | [] => some []
  | (k, .arr items) :: rest => if key = k then Action.ofItems? items else Action.itemsAt? key rest
  | (k, _) :: rest => if key = k then none else Action.itemsAt? key rest

def Action.itemsNth? : Nat → List Json → Option (List Action)
  | _, [] => some []
  | 0, .arr items :: _ => Action.ofItems? items
  | 0, _ :: _ => none
  | i + 1, _ :: rest => Action.itemsNth? i rest

def Action.optionAt? (key : String) : List (String × Json) → Option (Option (List Action))
  | [] => some none
  | (k, .arr items) :: rest =>
    if key = k then (Action.ofItems? items).map some else Action.optionAt? key rest
  | (k, .null) :: rest => if key = k then some none else Action.optionAt? key rest
  | (k, _) :: rest => if key = k then none else Action.optionAt? key rest

def Action.optionNth? : Nat → List Json → Option (Option (List Action))
  | _, [] => some none
  | 0, .arr items :: _ => (Action.ofItems? items).map some
  | 0, .null :: _ => some none
  | 0, _ :: _ => none
  | i + 1, _ :: rest => Action.optionNth? i rest

def Action.ofItems? : List Json → Option (List Action)
  | [] => some []
  | j :: js => do
    let a ← Action.ofJson? true j
    return a :: (← Action.ofItems? js)

end

end RuleSim
