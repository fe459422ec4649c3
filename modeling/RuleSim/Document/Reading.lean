import RuleSim.Document
import RuleSim.Document.Flaw
import RuleSim.Expr.Reading

namespace RuleSim

abbrev Read (α : Type) := Except Document.Flaw α

namespace Read

abbrev Entries := List (String × Json)

def ofOption {α : Type} (f : Json → Option α) (j : Json) : Read α :=
  match f j with
  | some a => .ok a
  | none => .error .shape

def need {α : Type} : Option α → Read α
  | some a => .ok a
  | none => .error .shape

def record (names : List String) : Json → Read Entries
  | .obj es => .ok es
  | .arr items => if items.length ≤ names.length then .ok (names.zip items) else .error .shape
  | _ => .error .shape

/-- Reads the parts of a record. Those of an array are first read in the order of the declaration,
which `inOrder` does, and a part too many is noticed last. -/
def recordBy {α : Type} (names : List String) (inOrder : Entries → Read Unit)
    (parts : Entries → Read α) : Json → Read α
  | .obj es => parts es
  | .arr items => do
    let es := names.zip items
    inOrder es
    let a ← parts es
    if items.length ≤ names.length then return a else .error .shape
  | _ => .error .shape

/-- A part that has to be there; that it is there is checked later. -/
def present {α : Type} (es : Entries) (key : String) (f : Json → Read α) : Read (Option α) :=
  match Table.find? es key with
  | none => .ok none
  | some j => (f j).map some

def nullable {α : Type} (es : Entries) (key : String) (f : Json → Read α) : Read (Option α) :=
  match Table.find? es key with
  | none | some .null => .ok none
  | some j => (f j).map some

/-- A part with a default; null does not stand for it. -/
def defaulting {α : Type} (es : Entries) (key : String) (default : α) (f : Json → Read α) :
    Read α :=
  match Table.find? es key with
  | none => .ok default
  | some j => f j

def text : Json → Read String := ofOption Json.str?

def whole : Json → Read Nat
  | .int n => if 0 ≤ n ∧ n < 2 ^ 64 then .ok n.toNat else .error .shape
  | _ => .error .shape

def smallInt : Json → Read Int
  | .int n => if -2 ^ 31 ≤ n ∧ n < 2 ^ 31 then .ok n else .error .shape
  | _ => .error .shape

def list {α : Type} (f : Json → Read α) : Json → Read (List α)
  | .arr items => items.mapM f
  | _ => .error .shape

def fields {α : Type} (f : Json → Read α) : Json → Read (Fields α)
  | .obj es => es.mapM fun (k, j) => do return (k, ← f j)
  | _ => .error .shape

def value (j : Json) : Read Value := .ok (Value.ofJson j)

def tree (j : Json) : Read Json := .ok j

def expr : Json → Read Expr := ofOption (Expr.ofJson? false)

def fieldType (j : Json) : Read FieldType :=
  match FieldType.ofJson j with
  | .ok t => .ok t
  | .error .shape => .error .shape
  | .error (.unknown name) => .error (.unknownFieldType name)

end Read

open Read

def FieldDecl.ofJson (j : Json) : Read FieldDecl := do
  let es ← record ["name", "type", "default"] j
  let default ← nullable es "default" value
  let name ← present es "name" text
  let type ← present es "type" fieldType
  return { name := ← need name, type := ← need type, default }

def ComponentDecl.ofJson (j : Json) : Read ComponentDecl := do
  let es ← record ["id", "name", "fields"] j
  let fields ← present es "fields" (list FieldDecl.ofJson)
  let id ← nullable es "id" whole
  let name ← present es "name" text
  return { id, name := ← need name, fields := ← need fields }

def Param.ofJson : Json → Read Param
  | .str name => .ok { name }
  | .obj es => do
    let name ← need (Json.strAt? es "name")
    match Table.find? es "type" with
    | none | some .null => return { name }
    | some j =>
      match FieldType.ofJson j with
      | .ok t => return { name, type := some t }
      | .error _ => throw .shape
  | _ => .error .shape

def BoundFunction.ofJson : Json → Read BoundFunction :=
  recordBy ["params", "return_type", "body", "source"]
    (fun es => do
      let _ ← defaulting es "params" [] (list Param.ofJson)
      let _ ← nullable es "return_type" fieldType)
    fun es => do
      let body ← present es "body" expr
      let params ← defaulting es "params" [] (list Param.ofJson)
      let returnType ← nullable es "return_type" fieldType
      let source ← nullable es "source" text
      return { params, returnType, body := ← need body, source }

def FunctionDecl.ofJson (j : Json) : Read FunctionDecl := do
  let es ← record ["id", "name", "params", "return_type", "body"] j
  let body ← present es "body" expr
  let id ← nullable es "id" whole
  let name ← present es "name" text
  let params ← defaulting es "params" [] (list Param.ofJson)
  let returnType ← nullable es "return_type" fieldType
  return { id, name := ← need name, params, returnType, body := ← need body }

def Trigger.ofJson (j : Json) : Read Trigger := do
  let es ← record ["type", "event", "bindings"] j
  let bindings ← defaulting es "bindings" [] (fields text)
  let event ← nullable es "event" text
  let kind ← present es "type" text
  return { kind := ← need kind, event, bindings }

def filterOfJson (j : Json) : Read (List String) := do
  let es ← record ["components"] j
  defaulting es "components" [] (list text)

def RuleDecl.ofJson (j : Json) : Read RuleDecl := do
  let es ← record ["id", "name", "trigger", "filter", "condition", "priority", "actions"] j
  let actions ← present es "actions" (list (ofOption (Action.ofJson? false)))
  let condition ← nullable es "condition" expr
  let filter ← nullable es "filter" filterOfJson
  let id ← nullable es "id" whole
  let name ← nullable es "name" text
  let priority ← defaulting es "priority" 0 smallInt
  let trigger ← present es "trigger" Trigger.ofJson
  return { id, name, trigger := ← need trigger, filter, condition, priority,
           actions := ← need actions }

def EntityDecl.ofJson : Json → Read EntityDecl :=
  recordBy ["id", "name", "components", "bound_functions"]
    (fun es => do
      let _ ← nullable es "id" whole
      let _ ← nullable es "name" text
      let _ ← defaulting es "components" [] (fields (fields value)))
    fun es => do
      let boundFunctions ← defaulting es "bound_functions" [] (fields BoundFunction.ofJson)
      let components ← defaulting es "components" [] (fields (fields value))
      let id ← nullable es "id" whole
      let name ← nullable es "name" text
      return { id, name, components, boundFunctions }

def initialStateOfJson (j : Json) : Read (List EntityDecl) := do
  let es ← record ["entities"] j
  defaulting es "entities" [] (list EntityDecl.ofJson)

def Module.ofJson (j : Json) : Read Module := do
  let es ← record ["version", "module", "metadata", "components", "rules", "functions", "trackers",
    "constants", "initial_state", "choice_functions", "choice_points", "source_map"] j
  let choiceFunctions ← defaulting es "choice_functions" [] (list tree)
  let choicePoints ← defaulting es "choice_points" [] (list tree)
  let components ← defaulting es "components" [] (list ComponentDecl.ofJson)
  let constants ← defaulting es "constants" [] (fields value)
  let functions ← defaulting es "functions" [] (list FunctionDecl.ofJson)
  let initialState ← nullable es "initial_state" initialStateOfJson
  let metadata ← nullable es "metadata" tree
  let name ← present es "module" text
  let rules ← defaulting es "rules" [] (list RuleDecl.ofJson)
  let sourceMap ← nullable es "source_map" tree
  let trackers ← defaulting es "trackers" [] (list tree)
  let version ← present es "version" text
  return { version := ← need version, name := ← need name, metadata, components, rules, functions,
           trackers, constants, initialState, choiceFunctions, choicePoints, sourceMap }

end RuleSim
