import RuleSim.Document.Reading
import RuleSim.Json.Number
import RuleSim.MessagePack
import RuleSim.Snapshot

namespace RuleSim

namespace Snapshot

def idOfKey? (key : String) : Option EntityId :=
  match Json.ofNumber? key.toList with
  | some (.int n) => if 0 ≤ n then some (.ofNat n.toNat) else none
  | _ => none

def number? : Json → Option Binary64
  | .int n => some (Binary64.ofInt n)
  | .float x => some x
  | _ => none

def textsOfJson? : Json → Option (List String)
  | .arr items => items.mapM Json.str?
  | _ => none

def recordOfJson? : Json → Option Record
  | .obj es => some (Value.ofJsonEntries es)
  | _ => none

def recordsOfJson? : Json → Option (Table String Record)
  | .obj es => es.mapM fun (c, j) => (recordOfJson? j).map (c, ·)
  | _ => none

end Snapshot

open Snapshot

def EntitySnapshot.ofJson? (j : Json) : Option EntitySnapshot := do
  let es ← (Read.record ["name", "components", "bound_functions"] j).toOption
  let name ← match Table.find? es "name" with
    | none | some .null => some none
    | some j => j.str?.map some
  let components ← (Table.find? es "components").bind recordsOfJson?
  let boundFunctions ← match Table.find? es "bound_functions" with
    | none => some []
    | some j => textsOfJson? j
  return { name, components, boundFunctions }

def Snapshot.ofJson? (j : Json) : Option Snapshot := do
  let es ← (Read.record ["time", "entities"] j).toOption
  let time ← (Table.find? es "time").bind number?
  match Table.find? es "entities" with
  | some (.obj entries) =>
    let entities ← entries.mapM fun (k, j) => do
      return (← idOfKey? k, ← EntitySnapshot.ofJson? j)
    return { time, entities := Table.ofList entities }
  | _ => none

namespace Pack

def number? : Pack → Option Binary64
  | nat n => some (Binary64.ofInt n)
  | int n => some (Binary64.ofInt n)
  | float x => some x
  | _ => none

def id? : Pack → Option EntityId
  | nat n => some (.ofNat n)
  | int n => if 0 ≤ n then some (.ofNat n.toNat) else none
  | _ => none

mutual

def value? : Pack → Option Value
  | nil => some .null
  | bool b => some (.bool b)
  | nat n => some (Value.ofInt n)
  | int n => some (Value.ofInt n)
  | float x => some (.float x)
  | str s => some (.str s)
  | raw _ => none
  | bin _ => none
  | ext _ _ => none
  | arr items => (values? items).map .list
  | map entries => (fields? entries).map fun es => Value.ofEntries (Table.ofList es)

def values? : List Pack → Option (List Value)
  | [] => some []
  | p :: ps => do
    let v ← value? p
    return v :: (← values? ps)

def fields? : List (Pack × Pack) → Option (List (String × Value))
  | [] => some []
  | (k, p) :: rest => do
    let key ← text? k
    let v ← value? p
    return (key, v) :: (← fields? rest)

end

/-- The name of a part: a known name, a position among the known names, or none of them. -/
def partName? (names : List String) : Pack → Option (Option String)
  | str s => some (if s ∈ names then some s else none)
  | raw _ => some none
  | bin data => some (names.find? fun n => n.toUTF8.toList = data)
  | nat n => some (names[n]?)
  | _ => none

def knownParts? (names : List String) : List (Pack × Pack) → Option (List (String × Pack))
  | [] => some []
  | (k, p) :: rest => do
    match ← partName? names k with
    | none => knownParts? names rest
    | some name =>
      let parts ← knownParts? names rest
      if Table.contains parts name then none else return (name, p) :: parts

def record? (names : List String) : Pack → Option (List (String × Pack))
  | map entries => knownParts? names entries
  | arr items => if items.length ≤ names.length then some (names.zip items) else none
  | _ => none

def texts? : Pack → Option (List String)
  | arr items => items.mapM text?
  | bin [] => some []
  | _ => none

def fieldsOf? : Pack → Option Record
  | map entries => (fields? entries).map Table.ofList
  | _ => none

def recordsOf? : Pack → Option (Table String Record)
  | map entries => do
    let es ← entries.mapM fun (k, p) => do return (← text? k, ← fieldsOf? p)
    return Table.ofList es
  | _ => none

def entitySnapshot? (p : Pack) : Option EntitySnapshot := do
  let es ← record? ["name", "components", "bound_functions"] p
  let name ← match Table.find? es "name" with
    | none | some nil => some none
    | some p => p.text?.map some
  let components ← (Table.find? es "components").bind recordsOf?
  let boundFunctions ← match Table.find? es "bound_functions" with
    | none => some []
    | some p => texts? p
  return { name, components, boundFunctions }

def snapshot? (p : Pack) : Option Snapshot := do
  let es ← record? ["time", "entities"] p
  let time ← (Table.find? es "time").bind number?
  match Table.find? es "entities" with
  | some (map entries) =>
    let entities ← entries.mapM fun (k, p) => do return (← id? k, ← entitySnapshot? p)
    return { time, entities := Table.ofList entities }
  | _ => none

end Pack

def Snapshot.ofBytes (bytes : List UInt8) : Except Error Snapshot :=
  match (Pack.ofBytes? bytes).bind Pack.snapshot? with
  | some s => .ok s
  | none => .error ⟨.serialization "not a snapshot", none⟩

end RuleSim
