import RuleSim.Config
import RuleSim.RuleSet
import RuleSim.Scheduler
import RuleSim.Trace
import RuleSim.World

namespace RuleSim

structure Stage where
  world : World := {}
  scheduler : Scheduler := {}
  random : Random := Random.ofSeed 0
  trace : TraceSink := {}

namespace Execution

structure State extends Stage where
  /-- The entity, the bindings of the trigger, and `let` and loop variables. -/
  locals : Fields Value := []
  /-- Parameters of the calls under way, the innermost first. -/
  frames : List (Fields Value) := []

structure Scope where
  rules : RuleSet
  limits : ExecutionLimits
  event : Event
  rule : String := ""

/-- An execution changes the state, also when it fails. -/
abbrev Exec := EStateM Error State

def fail {α : Type} (kind : Error.Kind) : Exec α := throw ⟨kind, none⟩

def lift {α : Type} : Except Error.Kind α → Exec α
  | .ok a => pure a
  | .error kind => fail kind

/-- A change of the world that may fail; if it does, the world stays as it was. -/
def onWorld {α : Type} (f : World → Except Error (α × World)) : Exec α := fun s =>
  match f s.world with
  | .ok (a, world) => .ok a { s with world }
  | .error e => .error e s

def changeWorld (f : World → Except Error World) : Exec Unit := onWorld fun w => (f w).map ((), ·)

def record (e : TraceEvent) : Exec Unit := modify fun s => { s with trace := s.trace.record e }

def setLocal (name : String) (v : Value) : Exec Unit :=
  modify fun s => { s with locals := Table.put s.locals name v }

def Scope.source (c : Scope) : Value := (c.event.payload.source.map Value.entity).getD .null

def Scope.target (c : Scope) : Value := (c.event.payload.target.map Value.entity).getD .null

def Scope.slot (c : Scope) (name : String) : Value :=
  if name = "source" then c.source
  else if name = "target" then c.target
  else (Table.find? c.event.payload.fields name).getD .null

def State.param? (s : State) (name : String) : Option Value :=
  s.frames.head?.bind (Table.find? · name)

/-- What a name means outside calls and locals: a part of the event, a constant, or, after `@`, an
entity. Any other name is null. -/
def Scope.global (c : Scope) (w : World) (name : String) : Value :=
  if name = "source" then c.source
  else if name = "target" then c.target
  else
    match Table.find? c.event.payload.fields name with
    | some v => v
    | none =>
      match c.rules.constant? name with
      | some v => v
      | none =>
        match name.toList with
        | '@' :: rest => ((w.entityByName? (String.ofList rest)).map Value.entity).getD .null
        | _ => .null

/-- What a name means: a parameter of the innermost call, else a local, else something global. -/
def Scope.lookUp (c : Scope) (s : State) (name : String) : Value :=
  match s.param? name with
  | some v => v
  | none => (Table.find? s.locals name).getD (c.global s.world name)

def liveEntity? (w : World) (v : Value) : Option EntityId := v.asEntity?.filter w.hasEntity

/-- A field, or its declared default if the entity has the component but not the field. -/
def readField (w : World) (id : EntityId) (component field : String) : Value :=
  match w.field? id component field with
  | some v => v
  | none =>
    if w.hasComponent id component then
      ((w.fieldSchema? component field).map (·.default)).getD .null
    else .null

end Execution

end RuleSim
