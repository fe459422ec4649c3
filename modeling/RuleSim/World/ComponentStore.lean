import RuleSim.OrderedSet
import RuleSim.World.Schema

namespace RuleSim

/-- The index serves the operations on one entity, and the tables serve queries. Every operation
keeps the two in step. -/
structure ComponentStore where
  schemas : Table String ComponentSchema := []
  data : Table String (Table EntityId Record) := []
  attached : Table EntityId (OrderedSet String) := []
deriving DecidableEq, Inhabited

namespace ComponentStore

def schema? (s : ComponentStore) (component : String) : Option ComponentSchema :=
  s.schemas.find? component

def register (s : ComponentStore) (schema : ComponentSchema) : ComponentStore :=
  { s with schemas := s.schemas.insert schema.name schema }

def instances (s : ComponentStore) (component : String) : Table EntityId Record :=
  (s.data.find? component).getD []

def components (s : ComponentStore) (entity : EntityId) : OrderedSet String :=
  (s.attached.find? entity).getD []

def get? (s : ComponentStore) (entity : EntityId) (component : String) : Option Record :=
  (s.instances component).find? entity

def has (s : ComponentStore) (entity : EntityId) (component : String) : Bool :=
  (s.get? entity component).isSome

def getField? (s : ComponentStore) (entity : EntityId) (component field : String) : Option Value :=
  (s.get? entity component).bind (Table.find? · field)

def insert (s : ComponentStore) (entity : EntityId) (component : String) (record : Record) :
    ComponentStore :=
  { s with
    data := s.data.insert component ((s.instances component).insert entity record)
    attached := s.attached.insert entity ((s.components entity).insert component) }

/-- The record of a new instance: the defaults of the schema, overlaid with initial values. -/
def newRecord (s : ComponentStore) (component : String) (init : List (String × Value)) : Record :=
  match s.schema? component with
  | some schema => schema.instantiate init
  | none => Table.ofList init

def attach (s : ComponentStore) (entity : EntityId) (component : String)
    (init : List (String × Value)) : ComponentStore :=
  s.insert entity component (s.newRecord component init)

def remove (s : ComponentStore) (entity : EntityId) (component : String) : ComponentStore :=
  if s.has entity component then
    { s with
      data := s.data.insert component ((s.instances component).erase entity)
      attached := s.attached.insert entity ((s.components entity).erase component) }
  else s

def dropRecords (data : Table String (Table EntityId Record)) (entity : EntityId) :
    List String → Table String (Table EntityId Record)
  | [] => data
  | c :: cs =>
    match data.find? c with
    | some table => dropRecords (data.insert c (table.erase entity)) entity cs
    | none => dropRecords data entity cs

/-- Removes every component that the index lists for an entity. -/
def removeEntity (s : ComponentStore) (entity : EntityId) : ComponentStore :=
  { s with
    data := dropRecords s.data entity (s.components entity)
    attached := s.attached.erase entity }

def coerce (s : ComponentStore) (component field : String) (v : Value) : Value :=
  match s.schema? component with
  | some schema => schema.coerce field v
  | none => v

def ensure (s : ComponentStore) (entity : EntityId) (component : String) : ComponentStore :=
  if s.has entity component then s else s.attach entity component []

/-- Writes a field, first attaching the component if the entity lacks it. Nothing if the field holds
the value already. -/
def setField? (s : ComponentStore) (entity : EntityId) (component field : String) (v : Value) :
    Option ComponentStore :=
  let v := s.coerce component field v
  if s.getField? entity component field = some v then none
  else
    let s := s.ensure entity component
    let record := (s.get? entity component).getD []
    some { s with
      data := s.data.insert component
        ((s.instances component).insert entity (Table.insert record field v)) }

/-- The smallest of the tables, the first of equals, and the others. -/
def smallestFirst {α : Type} (first : List α) : List (List α) → List α × List (List α)
  | [] => (first, [])
  | t :: ts =>
    if t.length < first.length then
      let (s, others) := smallestFirst t ts
      (s, first :: others)
    else
      let (s, others) := smallestFirst first ts
      (s, t :: others)

/-- The entities that carry all listed components, in ascending order: the entities of the smallest
table that are in all the others. No list of components means no entity. -/
def withAll (s : ComponentStore) (components : List String) : List EntityId :=
  match components.map s.instances with
  | [] => []
  | t :: ts =>
    let (smallest, others) := smallestFirst t ts
    (Table.keys smallest).filter fun id => others.all (Table.contains · id)

def mapInstances (s : ComponentStore) (component : String) (f : Record → Record) : ComponentStore :=
  match s.data.find? component with
  | some table => { s with data := s.data.insert component (table.map fun (id, r) => (id, f r)) }
  | none => s

def empty : ComponentStore := {}

end ComponentStore

end RuleSim
