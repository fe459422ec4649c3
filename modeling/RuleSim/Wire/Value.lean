import RuleSim.Document.Writing
import RuleSim.Json.Reader

namespace RuleSim.Wire

def hexDigits (width n : Nat) : String :=
  let digits := Nat.toDigits 16 n
  String.ofList (List.replicate (width - digits.length) '0' ++ digits)

def number (x : Binary64) : Json :=
  .str (if x.isNaN then "nan" else hexDigits 16 x.bits.toNat)

def nat (n : Nat) : Json := .int n

def entity (e : EntityId) : Json := nat e.toNat

def entities (es : List EntityId) : Json := .arr (es.map entity)

def orNull {α : Type} (f : α → Json) : Option α → Json
  | some a => f a
  | none => .null

def texts (l : List String) : Json := .arr (l.map .str)

def bytes (l : List UInt8) : Json := .str (String.join (l.map fun b => hexDigits 2 b.toNat))

mutual

def value : Value → Json
  | .null => .null
  | .bool b => .bool b
  | .int n => .int n.toInt
  | .str s => .str s
  | .float x => .obj [("float", number x)]
  | .entity e => .obj [("$entity", entity e)]
  | .list items => .arr (valueItems items)
  | .map entries => .obj [("map", .obj (valueEntries entries))]

def valueItems : List Value → List Json
  | [] => []
  | v :: vs => value v :: valueItems vs

def valueEntries : List (String × Value) → List (String × Json)
  | [] => []
  | (k, v) :: es => (k, value v) :: valueEntries es

end

def lookUp : Option Value → Json
  | some v => .obj [("value", value v)]
  | none => .str "absent"

def record (r : List (String × Value)) : Json := .obj (valueEntries r)

mutual

/-- A document with its binary numbers made exact; JSON text has no infinite ones. -/
def document : Json → Json
  | .float x => if x.isFinite then .obj [("float", number x)] else .null
  | .arr items => .arr (documentItems items)
  | .obj entries => .obj (documentEntries entries)
  | j => j

def documentItems : List Json → List Json
  | [] => []
  | j :: js => document j :: documentItems js

def documentEntries : List (String × Json) → List (String × Json)
  | [] => []
  | (k, j) :: es => (k, document j) :: documentEntries es

end

def hexNat? (cs : List Char) : Option Nat :=
  if cs.isEmpty then none
  else cs.foldlM (fun n c => (Json.Machine.hexValue? c).map fun d => n * 16 + d) 0

def ofHex : List Char → List UInt8
  | a :: b :: rest => ((hexNat? [a, b]).getD 0).toUInt8 :: ofHex rest
  | _ => []

def number? (s : String) : Option Binary64 :=
  match s with
  | "nan" => some Binary64.nan
  | "inf" => some (Binary64.infinity false)
  | "-inf" => some (Binary64.infinity true)
  | s => if s.length = 16 then (hexNat? s.toList).map fun n => ⟨n.toUInt64⟩ else none

def numberKey : String := "$float"

def ofEntries? : List (String × Value) → Option Value
  | [(k, .str s)] => if k = numberKey then (number? s).map .float else none
  | _ => none

mutual

def withNumbers : Value → Value
  | .list items => .list (itemsWithNumbers items)
  | .map entries =>
    let entries := entriesWithNumbers entries
    (ofEntries? entries).getD (.map entries)
  | v => v

def itemsWithNumbers : List Value → List Value
  | [] => []
  | v :: vs => withNumbers v :: itemsWithNumbers vs

def entriesWithNumbers : List (String × Value) → List (String × Value)
  | [] => []
  | (k, v) :: es => (k, withNumbers v) :: entriesWithNumbers es

end

def ofJson (j : Json) : Value := withNumbers (Value.ofJson j)

end RuleSim.Wire
