import RuleSim.Document

namespace RuleSim

abbrev Record := Table String Value

structure FieldSchema where
  name : String
  type : FieldType
  /-- The default, already of the declared type. -/
  default : Value
deriving DecidableEq

structure ComponentSchema where
  name : String
  fields : List FieldSchema
deriving DecidableEq

namespace FieldSchema

/-- Without a declared default the type's zero value is the default. -/
def make (name : String) (type : FieldType) (default : Option Value) : FieldSchema where
  name := name
  type := type
  default := match default with
    | some v => type.coerce v
    | none => type.zeroValue

def ofDecl (f : FieldDecl) : FieldSchema := make f.name f.type f.default

end FieldSchema

namespace ComponentSchema

def ofDecl (c : ComponentDecl) : ComponentSchema := ⟨c.name, c.fields.map FieldSchema.ofDecl⟩

def field? (s : ComponentSchema) (name : String) : Option FieldSchema :=
  s.fields.find? (·.name = name)

/-- Replaces the first field of that name, or adds the field at the end. -/
def upsert : List FieldSchema → FieldSchema → List FieldSchema
  | [], f => [f]
  | g :: gs, f => if g.name = f.name then f :: gs else g :: upsert gs f

def upsertField (s : ComponentSchema) (f : FieldSchema) : ComponentSchema :=
  { s with fields := upsert s.fields f }

def defaults (s : ComponentSchema) : Record :=
  Table.ofList (s.fields.map fun f => (f.name, f.default))

/-- A value as the named field takes it. Fields that are not declared take anything. -/
def coerce (s : ComponentSchema) (field : String) (v : Value) : Value :=
  match s.field? field with
  | some f => f.type.coerce v
  | none => v

def instantiate (s : ComponentSchema) (init : List (String × Value)) : Record :=
  Table.insertAll s.defaults (init.map fun (k, v) => (k, s.coerce k v))

end ComponentSchema

end RuleSim
