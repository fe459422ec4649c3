import RuleSim.Content

namespace RuleSim

structure MergeOptions where
  overrideTypes : Bool := false
  /-- Moves all incoming rule identifiers past the loaded ones if one of them is taken. -/
  shiftIds : Bool := false
  mergeEntities : Bool := false
deriving DecidableEq, Inhabited

structure MergeReport where
  componentsAdded : Nat := 0
  fieldsAdded : Nat := 0
  fieldsRetyped : Nat := 0
  rulesAdded : Nat := 0
  functionsAdded : Nat := 0
  functionsShadowed : Nat := 0
  entitiesAdded : Nat := 0
  entitiesSkipped : Nat := 0
  idOffset : Nat := 0
deriving DecidableEq, Inhabited

namespace Merge

structure FieldChange where
  schema : FieldSchema
  retype : Bool

inductive SchemaChange where
  | register (schema : ComponentSchema)
  | change (component : String) (fields : List FieldChange)

namespace SchemaChange

def isNew : SchemaChange → Bool
  | register _ => true
  | change .. => false

def fields : SchemaChange → List FieldChange
  | register _ => []
  | change _ fields => fields

def apply (w : World) : SchemaChange → World
  | register schema => w.register schema
  | change component fields => fields.foldl (fun w f => w.mergeField component f.schema) w

end SchemaChange

/-- What the declared fields change in an existing schema. A field of the same type stays. -/
def planFields (existing : ComponentSchema) (overrideTypes : Bool) :
    List FieldDecl → Except Error (List FieldChange)
  | [] => .ok []
  | d :: ds =>
    match existing.field? d.name with
    | none => do return ⟨.ofDecl d, false⟩ :: (← planFields existing overrideTypes ds)
    | some current =>
      if current.type = d.type then planFields existing overrideTypes ds
      else if overrideTypes then do
        return ⟨.ofDecl d, true⟩ :: (← planFields existing overrideTypes ds)
      else .error ⟨.mergeConflict existing.name d.name current.type d.type, none⟩

def planSchemas (w : World) (overrideTypes : Bool) :
    List ComponentDecl → Except Error (List SchemaChange)
  | [] => .ok []
  | d :: ds =>
    match w.schema? d.name with
    | none => do return .register (.ofDecl d) :: (← planSchemas w overrideTypes ds)
    | some existing => do
      let fields ← planFields existing overrideTypes d.fields
      return .change d.name fields :: (← planSchemas w overrideTypes ds)

/-- The distance by which incoming rule identifiers move: none unless one of them is taken. -/
def idOffset (m : Module) (rules : RuleSet) (shiftIds : Bool) : Nat :=
  if (m.rules.filterMap (·.id)).any rules.hasId && shiftIds then
    (rules.maxId?.map (· + 1)).getD 0
  else 0

/-- The sum has no bound here, while the identifiers that a document declares have one. -/
def shift (offset : Nat) (d : RuleDecl) : RuleDecl := { d with id := d.id.map (· + offset) }

def absentEntities (w : World) (ds : List EntityDecl) : List EntityDecl :=
  ds.filter fun d => !(d.id.map EntityId.ofNat).any w.hasEntity

end Merge

namespace Content

open Merge

/-- Adds what a module declares to what is loaded. Existing entities get the new fields; functions
and constants whose name is taken are left out. A conflict of types is found before anything
changes. -/
def merge (m : Module) (options : MergeOptions) : EStateM Error Content MergeReport := do
  let c ← get
  match planSchemas c.world options.overrideTypes m.components with
  | .error e => throw e
  | .ok changes =>
    let offset := idOffset m c.rules options.shiftIds
    let declared := if options.mergeEntities then m.initialEntities else []
    let entities := absentEntities c.world declared
    let (functions, rules) :=
      (c.rules.addRules (m.rules.map (shift offset))).addFunctions m.functions
    set { world := changes.foldl SchemaChange.apply c.world
          rules := rules.addConstants m.constants : Content }
    let ids ← onWorld (World.spawnAll entities)
    return {
      componentsAdded := changes.countP SchemaChange.isNew
      fieldsAdded := (changes.flatMap SchemaChange.fields).countP (!·.retype)
      fieldsRetyped := (changes.flatMap SchemaChange.fields).countP (·.retype)
      rulesAdded := m.rules.length
      functionsAdded := functions
      functionsShadowed := m.functions.length - functions
      entitiesAdded := ids.length
      entitiesSkipped := declared.length - entities.length
      idOffset := offset }

end Content

end RuleSim
