import RuleSim.MessagePack
import RuleSim.Snapshot
import RuleSim.Document.Writing

namespace RuleSim

namespace EntitySnapshot

def recordsJson (components : Table String Record) : Json :=
  .obj (components.map fun (c, r) => (c, .obj (Value.toJsonEntries r)))

def toJson (e : EntitySnapshot) : Json :=
  .obj (optional "name" .str e.name ++ ("components", recordsJson e.components) ::
    unlessNone "bound_functions" (e.boundFunctions.map .str))

end EntitySnapshot

namespace Snapshot

def toJson (s : Snapshot) : Json :=
  .obj [("time", .float s.time),
    ("entities", .obj (s.entities.map fun (id, e) => (toString id.toNat, e.toJson)))]

def toPack (s : Snapshot) : Pack :=
  .map [(.str "time", .float s.time),
    (.str "entities", .map (s.entities.map fun (id, e) => (.nat id.toNat, Pack.ofJson e.toJson)))]

def toBytes (s : Snapshot) : List UInt8 := s.toPack.toBytes

end Snapshot

end RuleSim
