import RuleSim.Document.Version

namespace RuleSim.Document

abbrev Check (α : Type) := Except Error α

def flaw {α : Type} (f : Flaw) : Check α := .error ⟨.invalidDocument f, none⟩

abbrev Entries := List (String × Json)

def objectAt (path : String) : Json → Check Entries
  | .obj es => .ok es
  | _ => flaw (.expected path .object)

/-- An entry that has to be there; null counts as missing. -/
def required (es : Entries) (key path : String) : Check Json :=
  match Table.find? es key with
  | none | some .null => flaw (.missing path key)
  | some j => .ok j

def requiredText (es : Entries) (key path : String) : Check String := do
  match ← required es key path with
  | .str s => return s
  | _ => flaw (.expected (path ++ "." ++ key) .string)

def requiredItems (es : Entries) (key path : String) : Check (List Json) := do
  match ← required es key path with
  | .arr items => return items
  | _ => flaw (.expected (path ++ "." ++ key) .array)

def eachItem (path : String) (items : List Json) (check : String → Json → Check Unit) :
    Check Unit :=
  items.zipIdx.forM fun (j, i) => check (path ++ s!"[{i}]") j

def checkField (path : String) (j : Json) : Check Unit := do
  let es ← objectAt path j
  let _ ← requiredText es "name" path
  let _ ← required es "type" path

def checkComponent (path : String) (j : Json) : Check Unit := do
  let es ← objectAt path j
  let _ ← requiredText es "name" path
  eachItem (path ++ ".fields") (← requiredItems es "fields" path) checkField

def checkRule (path : String) (j : Json) : Check Unit := do
  let es ← objectAt path j
  let triggerPath := path ++ ".trigger"
  let trigger ← objectAt triggerPath (← required es "trigger" path)
  if let some (.str "event") := Table.find? trigger "type" then
    let _ ← requiredText trigger "event" triggerPath
  let _ ← requiredItems es "actions" path
  match Table.find? es "filter" with
  | none | some .null => return
  | some filter =>
    let filterPath := path ++ ".filter"
    let _ ← requiredItems (← objectAt filterPath filter) "components" filterPath

def checkFunction (path : String) (j : Json) : Check Unit := do
  let es ← objectAt path j
  let _ ← requiredText es "name" path
  let _ ← requiredItems es "params" path
  let _ ← required es "body" path

def validate (doc : Json) : Check Version := do
  match doc with
  | .obj es =>
    let version ← Version.check (← requiredText es "version" "module")
    let _ ← requiredText es "module" "module"
    let components ← requiredItems es "components" "module"
    let rules ← requiredItems es "rules" "module"
    let functions ← requiredItems es "functions" "module"
    eachItem "components" components checkComponent
    eachItem "rules" rules checkRule
    eachItem "functions" functions checkFunction
    match Table.find? es "initial_state" with
    | none | some .null => return version
    | some state =>
      let _ ← requiredItems (← objectAt "initial_state" state) "entities" "initial_state"
      return version
  | _ => flaw .rootNotObject

end RuleSim.Document
