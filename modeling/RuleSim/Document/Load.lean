import RuleSim.Document.Reading
import RuleSim.Document.Validation
import RuleSim.Document.Writing
import RuleSim.Json.Reader
import RuleSim.MessagePack

namespace RuleSim

namespace Module

def checkTriggers (m : Module) : Except Error Unit :=
  m.rules.zipIdx.forM fun (r, i) =>
    if r.trigger.kind = "event" then .ok ()
    else Document.flaw (.unsupportedTrigger i r.trigger.kind)

/-- No two initial entities ask for one identifier; `seen` are those already asked for. -/
def checkIds (seen : List Nat) (index : Nat) : List EntityDecl → Except Error Unit
  | [] => .ok ()
  | e :: es =>
    match e.id with
    | none => checkIds seen (index + 1) es
    | some id =>
      if id ∈ seen then Document.flaw (.duplicateEntity index id)
      else checkIds (id :: seen) (index + 1) es

def load (doc : Json) : Except Error Module := do
  let _ ← Document.validate doc
  match Module.ofJson doc with
  | .error f => Document.flaw f
  | .ok m =>
    m.checkTriggers
    checkIds [] 0 m.initialEntities
    return m

def loadText (text : String) : Except Error Module :=
  match Json.parse? text with
  | some doc => load doc
  | none => Document.flaw .malformedJson

def loadBytes (bytes : List UInt8) : Except Error Module :=
  match (Pack.ofBytes? bytes).bind Pack.toJson? with
  | some doc => load doc
  | none => Document.flaw .malformedMessagePack

def toBytes (m : Module) : List UInt8 := (Pack.ofJson m.toJson).toBytes

end Module

end RuleSim
