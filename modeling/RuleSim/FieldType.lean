import RuleSim.Value

namespace RuleSim

inductive FieldType where
  | string
  | boolean
  | integer
  | float
  | entity
  | list (element : FieldType)
  | map (key value : FieldType)
deriving DecidableEq, Inhabited

namespace FieldType

/-- The type of a bare name. Lists and maps hold binary numbers unless more is said. -/
def ofName? (name : String) : Option FieldType :=
  match name with
  | "string" => some string
  | "boolean" | "bool" => some boolean
  | "integer" | "int" => some integer
  | "float" | "number" | "decimal" => some float
  | "entity" => some entity
  | "list" => some (list float)
  | "map" => some (map string float)
  | _ => none

def name : FieldType → String
  | string => "string"
  | boolean => "boolean"
  | integer => "integer"
  | float => "float"
  | entity => "entity"
  | list _ => "list"
  | map _ _ => "map"

def text : FieldType → String
  | list t => "list<" ++ t.text ++ ">"
  | map k v => "map<" ++ k.text ++ ", " ++ v.text ++ ">"
  | t => t.name

def zeroValue : FieldType → Value
  | string => .str ""
  | boolean => .bool false
  | integer => .int 0
  | float => .float Binary64.zero
  | entity => .null
  | list _ => .list []
  | map _ _ => .map []

/-- Whole-number fields cut finite numbers toward zero and entity fields read entity numbers as
references; everything else is stored as given. -/
def coerce (t : FieldType) (v : Value) : Value :=
  match t, v with
  | integer, .float x => if x.isFinite then .int x.toInt64Clamped else v
  | entity, .int _ | entity, .float _ =>
    match v.asEntity? with
    | some e => .entity e
    | none => v
  | _, _ => v

inductive Flaw where
  | shape
  | unknown (name : String)
deriving DecidableEq

def named (name : String) : Except Flaw FieldType :=
  match ofName? name with
  | some t => .ok t
  | none => .error (.unknown name)

/-- A field type as written: a bare name, or a name with optional parts. -/
inductive Spelling where
  | bare (name : String)
  | tagged (name : String) (element key value : Option Spelling)

mutual

/-- The shape of a written type is settled before its names are looked at. -/
def Spelling.ofJson? : Json → Option Spelling
  | .str name => some (.bare name)
  | .obj entries =>
    match Table.find? entries "type" with
    | some (.str name) => do
      return .tagged name (← Spelling.part? "element" entries) (← Spelling.part? "key" entries)
        (← Spelling.part? "value" entries)
    | _ => none
  | _ => none

def Spelling.part? (key : String) : List (String × Json) → Option (Option Spelling)
  | [] => some none
  | (k, j) :: rest =>
    if k = key then
      match j with
      | .null => some none
      | j => (Spelling.ofJson? j).map some
    else Spelling.part? key rest

end

mutual

def ofSpelling : Spelling → Except Flaw FieldType
  | .bare name => named name
  | .tagged name element key value =>
    if name = "list" then do
      return list (← ofPart float element)
    else if name = "map" then do
      let k ← ofPart string key
      return map k (← ofPart float value)
    else named name

def ofPart (default : FieldType) : Option Spelling → Except Flaw FieldType
  | none => .ok default
  | some s => ofSpelling s

end

def ofJson (j : Json) : Except Flaw FieldType :=
  match Spelling.ofJson? j with
  | none => .error .shape
  | some s => ofSpelling s

/-- Scalars are written by name, lists and maps with all their parts. -/
def toJson : FieldType → Json
  | list t => .obj [("type", .str "list"), ("element", t.toJson)]
  | map k v => .obj [("type", .str "map"), ("key", k.toJson), ("value", v.toJson)]
  | t => .str t.name

end FieldType

end RuleSim
