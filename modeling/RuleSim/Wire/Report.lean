import RuleSim.Simulation
import RuleSim.Wire.Value

namespace RuleSim

def Error.Kind.name : Error.Kind → String
  | unsupportedVersion .. => "UnsupportedVersion"
  | invalidDocument .. => "InvalidIr"
  | mergeConflict .. => "MergeConflict"
  | unknownFunction .. => "UnknownFunction"
  | unknownBoundFunction .. => "UnknownBoundFunction"
  | entityNotFound .. => "EntityNotFound"
  | entityExists .. => "EntityExists"
  | typeMismatch .. => "TypeMismatch"
  | arityMismatch .. => "ArityMismatch"
  | divisionByZero => "DivisionByZero"
  | notIterable .. => "NotIterable"
  | limitExceeded .. => "LimitExceeded"
  | invalidState .. => "InvalidState"
  | serialization .. => "Serialization"
  | internal .. => "Internal"

namespace Wire

def context (c : ErrorContext) : Json :=
  .obj [("rule", orNull .str c.rule), ("event", orNull .str c.event),
    ("entity", orNull entity c.entity), ("stack", texts c.stack), ("text", .str c.text)]

/-- The message of an error; flaws of the form of a document are told by their kind alone. -/
def message? : Error.Kind → Option String
  | .serialization _ => none
  | .invalidDocument .malformedJson => some "malformed JSON"
  | .invalidDocument .malformedMessagePack => some "malformed MessagePack"
  | .invalidDocument .shape => some "shape"
  | k => some k.message

def error (e : Error) : Json :=
  .obj (("error", .str e.kind.name) :: optional "message" .str (message? e.kind) ++
    optional "context" context e.context)

def result {α : Type} (f : α → Json) : Except Error α → Json
  | .ok a => f a
  | .error e => error e

def schema (s : ComponentSchema) : Json :=
  .obj [("name", .str s.name), ("fields", .arr (s.fields.map fun f =>
    .obj [("name", .str f.name), ("type", .str f.type.text), ("default", value f.default)]))]

def fieldType (t : FieldType) : Json := .str t.text

def signatures (fs : Fields BoundFunction) : Json :=
  .arr (fs.map fun (name, f) =>
    .obj [("name", .str name),
      ("params", .arr (f.params.map fun p => .arr [.str p.name, orNull fieldType p.type])),
      ("returns", orNull fieldType f.returnType), ("source", orNull .str f.source)])

def event (e : Event) : Json :=
  .obj [("id", nat e.id), ("type", .str e.type), ("time", number e.time),
    ("source", orNull entity e.payload.source), ("target", orNull entity e.payload.target),
    ("fields", record e.payload.fields), ("sequence", nat e.sequence),
    ("interval", orNull number e.interval), ("recurring", .bool e.isRecurring)]

def failureEntries (f : RuleFailure) : List (String × Json) :=
  [("rule", .str f.rule), ("entity", entity f.entity), ("failure", error f.error)]

def report (r : EventReport) : Json :=
  .obj [("ok", .bool r.isOk), ("matched", nat r.matched), ("triggered", nat r.triggered),
    ("failures", .arr (r.failures.map fun f => .obj (failureEntries f)))]

def outcome (o : StepOutcome) : Json :=
  .obj [("event", event o.event), ("time", number o.time), ("report", report o.report),
    ("heartbeats", nat o.heartbeats), ("is_heartbeat", .bool o.event.isHeartbeat)]

def summary (r : RunSummary) : Json :=
  .obj [("events", nat r.events), ("heartbeats", nat r.heartbeats), ("time", number r.time),
    ("completed", .bool r.completed), ("reached_time_limit", .bool r.reachedTimeLimit)]

def heartbeat : HeartbeatOutcome → Json
  | .idle => .str "idle"
  | .dormant => .str "dormant"
  | .exhausted => .str "exhausted"
  | .recovered n => .obj [("recovered", nat n)]

def install (r : InstallReport) : Json :=
  .obj [("components", nat r.components), ("rules", nat r.rules), ("functions", nat r.functions),
    ("entities", nat r.entities)]

def merge (r : MergeReport) : Json :=
  .obj [("components_added", nat r.componentsAdded), ("fields_added", nat r.fieldsAdded),
    ("fields_retyped", nat r.fieldsRetyped), ("rules_added", nat r.rulesAdded),
    ("functions_added", nat r.functionsAdded), ("functions_shadowed", nat r.functionsShadowed),
    ("entities_added", nat r.entitiesAdded), ("entities_skipped", nat r.entitiesSkipped),
    ("id_offset", nat r.idOffset)]

def snapshot (s : Snapshot) : Json :=
  .obj [("time", number s.time), ("entities", .arr (s.entities.map fun (id, e) =>
    .obj [("id", entity id), ("name", orNull .str e.name),
      ("components", .obj (e.components.map fun (c, r) => (c, record r))),
      ("bound", texts e.boundFunctions)]))]

def trace (r : TraceRecord) : Json :=
  .obj [("id", nat r.id), ("time", number r.time), ("kind", .str r.event.kind),
    ("text", .str r.event.text)]

def notification (n : Notification) : Json :=
  .obj (("kind", .str n.kind) :: match n with
    | .loaded m => [("module", .str m)]
    | .merged m r => [("module", .str m), ("report", merge r)]
    | .stateChanged a b => [("from", .str a.text), ("to", .str b.text)]
    | .step e t => [("event", .arr [nat e.id, .str e.type]), ("time", number t)]
    | .ruleFailed f => failureEntries f
    | .completed t => [("time", number t)]
    | .reset => [])

def delivery (d : Delivery) : Json :=
  .obj [("to", nat d.recipient), match d.news with
    | .note n => ("note", notification n)
    | .trace r => ("trace", trace r)]

end Wire

end RuleSim
