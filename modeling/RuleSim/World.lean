import RuleSim.Snapshot
import RuleSim.World.ComponentStore
import RuleSim.World.EntityStore

namespace RuleSim

structure World where
  entities : EntityStore := {}
  components : ComponentStore := {}
  bound : Table EntityId (Fields BoundFunction) := []
  names : Table String EntityId := []
  /-- Moves with every write that changes the state of an entity. -/
  revision : UInt64 := 0

namespace World

def empty : World := {}

def touch (w : World) : World := { w with revision := w.revision + 1 }

def schema? (w : World) (component : String) : Option ComponentSchema :=
  w.components.schema? component

def register (w : World) (schema : ComponentSchema) : World :=
  { w with components := w.components.register schema }

def fieldSchema? (w : World) (component field : String) : Option FieldSchema :=
  (w.schema? component).bind (·.field? field)

/-- A record brought in line with a declared field: the value it has, coerced, or the default. -/
def alignField (f : FieldSchema) (r : Record) : Record :=
  match Table.find? r f.name with
  | some v => Table.insert r f.name (f.type.coerce v)
  | none => Table.insert r f.name f.default

def mergeField (w : World) (component : String) (f : FieldSchema) : World :=
  let schema := (w.schema? component).getD ⟨component, []⟩
  let w := w.register (schema.upsertField f)
  if (w.components.instances component).isEmpty then w
  else touch { w with components := w.components.mapInstances component (alignField f) }

def hasEntity (w : World) (id : EntityId) : Bool := w.entities.exists? id

def entityIds (w : World) : List EntityId := w.entities.live

def validate (w : World) (id : EntityId) : Except Error Unit := w.entities.validate id

def create (w : World) : EntityId × World :=
  let (id, entities) := w.entities.spawn
  (id, touch { w with entities })

def createWithId (w : World) (id : EntityId) : Except Error World := do
  let entities ← w.entities.insert id
  return touch { w with entities }

def delete (w : World) (id : EntityId) : Except Error World := do
  let entities ← w.entities.destroy id
  return touch { w with
    entities
    components := w.components.removeEntity id
    bound := w.bound.erase id
    names := w.names.filter fun p => p.2 ≠ id }

def setName (w : World) (id : EntityId) (name : String) : Except Error World := do
  w.validate id
  return touch { w with names := w.names.insert name id }

def entityByName? (w : World) (name : String) : Option EntityId :=
  (w.names.find? name).filter w.hasEntity

def nameOf? (w : World) (id : EntityId) : Option String :=
  (List.find? (fun p => p.2 = id) w.names).map (·.1)

def addComponent (w : World) (id : EntityId) (component : String) (init : List (String × Value)) :
    Except Error World := do
  w.validate id
  return touch { w with components := w.components.attach id component init }

def removeComponent (w : World) (id : EntityId) (component : String) :
    Except Error (Bool × World) := do
  w.validate id
  if w.components.has id component then
    return (true, touch { w with components := w.components.remove id component })
  else return (false, w)

def hasComponent (w : World) (id : EntityId) (component : String) : Bool :=
  w.hasEntity id && w.components.has id component

def component? (w : World) (id : EntityId) (component : String) : Option Record :=
  w.components.get? id component

def field? (w : World) (id : EntityId) (component field : String) : Option Value :=
  w.components.getField? id component field

/-- Writes a field, coerced to its declared type. A value that is there already changes nothing. -/
def setField (w : World) (id : EntityId) (component field : String) (v : Value) :
    Except Error World := do
  w.validate id
  match w.components.setField? id component field v with
  | some components => return touch { w with components }
  | none => return w

def componentsOf (w : World) (id : EntityId) : List String := w.components.components id

/-- The entities that carry all listed components; all entities if none is listed. -/
def query (w : World) (components : List String) : List EntityId :=
  if components.isEmpty then w.entityIds else w.components.withAll components

def recordsOf (w : World) (id : EntityId) : Table String Record :=
  (w.componentsOf id).filterMap fun c => (w.component? id c).map (c, ·)

def insertRecords (s : ComponentStore) (id : EntityId) (records : List (String × Record)) :
    ComponentStore :=
  records.foldl (fun s (c, r) => s.insert id c r) s

def clone (w : World) (source : EntityId) (target : Option EntityId) :
    Except Error (EntityId × World) := do
  w.validate source
  let records := w.recordsOf source
  let functions := w.bound.find? source
  let (id, w) ← match target with
    | some id => do pure (id, ← w.createWithId id)
    | none => pure w.create
  return (id, { w with
    components := insertRecords w.components id records
    bound := match functions with
      | some fs => w.bound.insert id fs
      | none => w.bound })

def functionsOf (w : World) (id : EntityId) : Fields BoundFunction := (w.bound.find? id).getD []

def setBoundFunction (w : World) (id : EntityId) (name : String) (f : BoundFunction) :
    Except Error World := do
  w.validate id
  return touch { w with bound := w.bound.insert id (Table.put (w.functionsOf id) name f) }

def boundFunction? (w : World) (id : EntityId) (name : String) : Option BoundFunction :=
  Table.find? (w.functionsOf id) name

def resolveBound (w : World) (id : EntityId) (name : String) : Except Error BoundFunction := do
  w.validate id
  match w.boundFunction? id name with
  | some f => .ok f
  | none => .error ⟨.unknownBoundFunction id name, none⟩

def boundFunctionNames (w : World) (id : EntityId) : List String := Table.keys (w.functionsOf id)

def snapshotEntity (w : World) (id : EntityId) : EntitySnapshot where
  name := w.nameOf? id
  components := w.recordsOf id
  boundFunctions := w.boundFunctionNames id

def snapshot (w : World) (time : Binary64) : Snapshot where
  time := time
  entities := w.entityIds.map fun id => (id, w.snapshotEntity id)

/-- Removes all entities and keeps the schemas. -/
def clearEntities (w : World) : World :=
  touch { w with
    entities := .empty
    components := w.entityIds.foldl ComponentStore.removeEntity w.components
    bound := []
    names := [] }

def clear (w : World) : World := touch { empty with revision := w.revision }

end World

end RuleSim
