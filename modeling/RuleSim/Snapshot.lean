import RuleSim.World.Schema

namespace RuleSim

structure EntitySnapshot where
  name : Option String
  components : Table String Record
  boundFunctions : List String
deriving DecidableEq

structure Snapshot where
  time : Binary64
  entities : Table EntityId EntitySnapshot
deriving DecidableEq

namespace Snapshot

def entity? (s : Snapshot) (id : EntityId) : Option EntitySnapshot := s.entities.find? id

def field? (s : Snapshot) (id : EntityId) (component field : String) : Option Value := do
  let e ← s.entity? id
  let record ← e.components.find? component
  Table.find? record field

def same (s t : Snapshot) : Bool := s.time.numEq t.time && s.entities == t.entities

end Snapshot

end RuleSim
