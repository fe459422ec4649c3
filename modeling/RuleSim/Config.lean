import RuleSim.Document.Reading
import RuleSim.Json.Reader
import RuleSim.Error
import RuleSim.Number.Decimal

namespace RuleSim

structure ExecutionLimits where
  whileIterations : Nat := 1000
  loopIterations : Nat := 10000
  callDepth : Nat := 256
deriving DecidableEq, Inhabited

structure WatchdogConfig where
  enabled : Bool := true
  interval : Binary64 := Binary64.ofInt 5
  recoveryEvent : String := "attack"
  recoveryDelay : Binary64 := Binary64.ofRatio 1 1000
  /-- Heartbeats that one step may take. -/
  maxConsecutiveHeartbeats : Nat := 16
  /-- Rounds of recovery without any change after which the supervisor gives up. -/
  maxUnproductiveRecoveries : Nat := 3
  healthComponent : String := "Health"
  healthField : String := "current"
  targetComponent : String := "Target"
  targetField : String := "entity"
deriving DecidableEq, Inhabited

structure TraceConfig where
  enabled : Bool := false
  bufferSize : Nat := 10000
deriving DecidableEq, Inhabited

structure Config where
  seed : UInt64 := 0
  watchdog : WatchdogConfig := {}
  limits : ExecutionLimits := {}
  trace : TraceConfig := {}
deriving DecidableEq, Inhabited

def WatchdogConfig.isActive (c : WatchdogConfig) : Bool :=
  c.enabled && c.interval.isFinite && Binary64.zero.numLt c.interval

namespace Config

open Read

def withoutWatchdog (c : Config) : Config :=
  { c with watchdog := { c.watchdog with enabled := false } }

def names : List String := ["seed", "watchdog", "limits", "trace"]

def watchdogNames : List String :=
  ["enabled", "interval", "recovery_event", "recovery_delay", "max_consecutive_heartbeats",
    "max_unproductive_recoveries", "health_component", "health_field", "target_component",
    "target_field"]

def limitNames : List String := ["max_while_iterations", "max_loop_iterations", "max_call_depth"]

def traceNames : List String := ["enabled", "buffer_size"]

def settings (names : List String) (j : Json) : Read Entries := do
  let es ← record names j
  if names.any fun name => 1 < es.countP (·.1 = name) then .error .shape else return es

def flag : Json → Read Bool
  | .bool b => .ok b
  | _ => .error .shape

def number : Json → Read Binary64
  | .int n => .ok (Binary64.ofInt n)
  | .float x => .ok x
  | _ => .error .shape

def limitsOfJson (j : Json) : Read ExecutionLimits := do
  let es ← settings limitNames j
  let d : ExecutionLimits := {}
  return {
    whileIterations := ← defaulting es "max_while_iterations" d.whileIterations whole
    loopIterations := ← defaulting es "max_loop_iterations" d.loopIterations whole
    callDepth := ← defaulting es "max_call_depth" d.callDepth whole }

def watchdogOfJson (j : Json) : Read WatchdogConfig := do
  let es ← settings watchdogNames j
  let d : WatchdogConfig := {}
  return {
    enabled := ← defaulting es "enabled" d.enabled flag
    interval := ← defaulting es "interval" d.interval number
    recoveryEvent := ← defaulting es "recovery_event" d.recoveryEvent text
    recoveryDelay := ← defaulting es "recovery_delay" d.recoveryDelay number
    maxConsecutiveHeartbeats :=
      ← defaulting es "max_consecutive_heartbeats" d.maxConsecutiveHeartbeats whole
    maxUnproductiveRecoveries :=
      ← defaulting es "max_unproductive_recoveries" d.maxUnproductiveRecoveries whole
    healthComponent := ← defaulting es "health_component" d.healthComponent text
    healthField := ← defaulting es "health_field" d.healthField text
    targetComponent := ← defaulting es "target_component" d.targetComponent text
    targetField := ← defaulting es "target_field" d.targetField text }

def traceOfJson (j : Json) : Read TraceConfig := do
  let es ← settings traceNames j
  let d : TraceConfig := {}
  return {
    enabled := ← defaulting es "enabled" d.enabled flag
    bufferSize := ← defaulting es "buffer_size" d.bufferSize whole }

def ofJson (j : Json) : Read Config := do
  let es ← settings names j
  let d : Config := {}
  return {
    seed := (← defaulting es "seed" d.seed.toNat whole).toUInt64
    watchdog := ← defaulting es "watchdog" d.watchdog watchdogOfJson
    limits := ← defaulting es "limits" d.limits limitsOfJson
    trace := ← defaulting es "trace" d.trace traceOfJson }

/-- What a form says about the settings of a group; what stands under any other key is passed
over unread. -/
def named? (names : List String) (setting? : String → Json.Form → Option Json) :
    Json.Form → Option Json
  | .obj entries => do
    let es ← entries.filterMapM fun (k, f) => do
      let name ← Json.Form.text? k
      if name ∈ names then return some (name, ← setting? name f) else return none
    return .obj es
  | .arr items => do
    if names.length < items.length then none
    return .arr (← (names.zip items).mapM fun (name, f) => setting? name f)
  | f => f.tree? Json.Form.maxDepth

def tree? (f : Json.Form) : Option Json :=
  let leaf? (_ : String) (f : Json.Form) := f.tree? Json.Form.maxDepth
  named? names (fun
    | "watchdog", f => named? watchdogNames leaf? f
    | "limits", f => named? limitNames leaf? f
    | "trace", f => named? traceNames leaf? f
    | name, f => leaf? name f) f

def ofText (text : String) : Except Error Config :=
  match (Json.Form.ofText? text).bind tree? with
  | none => .error ⟨.serialization "malformed JSON", none⟩
  | some j =>
    match ofJson j with
    | .ok c => .ok c
    | .error _ => .error ⟨.serialization "not a configuration", none⟩

def limitsJson (l : ExecutionLimits) : Json :=
  .obj [("max_while_iterations", .int l.whileIterations),
    ("max_loop_iterations", .int l.loopIterations), ("max_call_depth", .int l.callDepth)]

def watchdogJson (w : WatchdogConfig) : Json :=
  .obj [("enabled", .bool w.enabled), ("interval", .float w.interval),
    ("recovery_event", .str w.recoveryEvent), ("recovery_delay", .float w.recoveryDelay),
    ("max_consecutive_heartbeats", .int w.maxConsecutiveHeartbeats),
    ("max_unproductive_recoveries", .int w.maxUnproductiveRecoveries),
    ("health_component", .str w.healthComponent), ("health_field", .str w.healthField),
    ("target_component", .str w.targetComponent), ("target_field", .str w.targetField)]

def traceJson (t : TraceConfig) : Json :=
  .obj [("enabled", .bool t.enabled), ("buffer_size", .int t.bufferSize)]

def toJson (c : Config) : Json :=
  .obj [("seed", .int c.seed.toNat), ("watchdog", watchdogJson c.watchdog),
    ("limits", limitsJson c.limits), ("trace", traceJson c.trace)]

end Config

end RuleSim
