import RuleSim.Document.Flaw
import RuleSim.FieldType

namespace RuleSim

inductive Limit where
  | whileIterations (limit : Nat)
  | loopIterations (limit : Nat)
  | callDepth (limit : Nat) (function : Option String)
deriving DecidableEq

def Limit.text : Limit → String
  | whileIterations n => s!"max while iterations ({n}) exceeded"
  | loopIterations n => s!"max loop iterations ({n}) exceeded"
  | callDepth n none => s!"max call depth ({n}) exceeded"
  | callDepth n (some f) => s!"max call depth ({n}) exceeded calling " ++ f

/-- Where an error arose. Frames are function calls, the innermost first. -/
structure ErrorContext where
  rule : Option String := none
  event : Option String := none
  entity : Option EntityId := none
  stack : List String := []
deriving DecidableEq, Inhabited

def ErrorContext.text (c : ErrorContext) : String :=
  (match c.rule with | some r => "in rule " ++ r | none => "") ++
    (match c.event with | some e => " handling " ++ e | none => "") ++
    (match c.entity with | some e => " on " ++ e.text | none => "") ++
    if c.stack.isEmpty then "" else "\n" ++ String.join (c.stack.map fun f => "  in " ++ f ++ "\n")

inductive Error.Kind where
  | unsupportedVersion (found : String) (supported : Nat)
  | invalidDocument (flaw : Document.Flaw)
  | mergeConflict (component field : String) (existing incoming : FieldType)
  | unknownFunction (name : String)
  | unknownBoundFunction (entity : EntityId) (name : String)
  | entityNotFound (id : EntityId)
  | entityExists (id : EntityId)
  | typeMismatch (expected actual : String)
  | arityMismatch (function expected : String) (actual : Nat)
  | divisionByZero
  | notIterable (typeName : String)
  | limitExceeded (limit : Limit)
  | invalidState (operation state : String)
  | serialization (cause : String)
  | internal (cause : String)

structure Error where
  kind : Error.Kind
  context : Option ErrorContext := none

namespace Error

def Kind.message : Kind → String
  | unsupportedVersion found supported =>
    "unsupported IR version " ++ found ++ s!" (supported major version: {supported})"
  | invalidDocument flaw => "invalid IR: " ++ flaw.message
  | mergeConflict component field existing incoming =>
    "merge conflict: " ++ component ++ "." ++ field ++ " is " ++ existing.text ++
      ", incoming declares " ++ incoming.text
  | unknownFunction name => "unknown function: " ++ name
  | unknownBoundFunction entity name =>
    "unknown bound function " ++ name ++ " on entity " ++ entity.inspect
  | entityNotFound id => "entity not found: " ++ id.inspect
  | entityExists id => "entity already exists: " ++ id.inspect
  | typeMismatch expected actual => "type mismatch: expected " ++ expected ++ ", got " ++ actual
  | arityMismatch function expected actual =>
    "arity mismatch calling " ++ function ++ ": expected " ++ expected ++ s!", got {actual}"
  | divisionByZero => "division by zero"
  | notIterable typeName => "value of type " ++ typeName ++ " is not iterable"
  | limitExceeded limit => "limit exceeded: " ++ limit.text
  | invalidState operation state => "cannot " ++ operation ++ " while " ++ state
  | serialization cause => "serialization error: " ++ cause
  | internal cause => "internal error: " ++ cause

def message (e : Error) : String := e.kind.message

def inFrame (e : Error) (frame : String) : Error :=
  let c := e.context.getD {}
  { e with context := some ({ c with stack := c.stack ++ [frame] }) }

/-- Names the rule and event under way, and the entity unless one is named already. -/
def inRule (e : Error) (rule event : String) (entity : EntityId) : Error :=
  let c := e.context.getD {}
  let entity := some (c.entity.getD entity)
  { e with context := some { c with rule := some rule, event := some event, entity } }

end Error

end RuleSim
