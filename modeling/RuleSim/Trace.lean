import RuleSim.Error
import RuleSim.Number.Decimal

namespace RuleSim

inductive TraceEvent where
  | eventFired (id : Nat) (type : String) (time : Binary64)
  | ruleMatched (rule : String) (entity : EntityId)
  | ruleTriggered (rule : String) (entity : EntityId)
  | ruleFailed (rule : String) (entity : EntityId) (message : String)
  | limitReached (rule : String) (limit : Limit)
  | entitySpawned (entity : EntityId)
  | entityDespawned (entity : EntityId)
  | recoveryScheduled (type : String) (source : EntityId) (target : Option EntityId)
deriving DecidableEq, Inhabited

namespace TraceEvent

def kind : TraceEvent → String
  | eventFired .. => "event_fired"
  | ruleMatched .. => "rule_matched"
  | ruleTriggered .. => "rule_triggered"
  | ruleFailed .. => "rule_failed"
  | limitReached .. => "limit_reached"
  | entitySpawned .. => "entity_spawned"
  | entityDespawned .. => "entity_despawned"
  | recoveryScheduled .. => "recovery_scheduled"

def text : TraceEvent → String
  | eventFired id type time =>
    "event " ++ type ++ s!" #{id} fired at " ++ Layout.plain.text time
  | ruleMatched rule entity => "rule " ++ rule ++ " matched " ++ entity.text
  | ruleTriggered rule entity => "rule " ++ rule ++ " triggered on " ++ entity.text
  | ruleFailed rule entity message =>
    "rule " ++ rule ++ " failed on " ++ entity.text ++ ": " ++ message
  | limitReached rule limit => "rule " ++ rule ++ ": " ++ limit.text
  | entitySpawned entity => "spawned " ++ entity.text
  | entityDespawned entity => "despawned " ++ entity.text
  | recoveryScheduled type source none => "recovery " ++ type ++ " for " ++ source.text
  | recoveryScheduled type source (some target) =>
    "recovery " ++ type ++ " for " ++ source.text ++ " -> " ++ target.text

end TraceEvent

/-- Collects trace events until they are drained. While it is off it collects nothing. -/
structure TraceSink where
  enabled : Bool := false
  events : Array TraceEvent := #[]
deriving DecidableEq, Inhabited

namespace TraceSink

def record (t : TraceSink) (e : TraceEvent) : TraceSink :=
  if t.enabled then { t with events := t.events.push e } else t

/-- Turns collecting on or off; what is pending is dropped when it is turned off. -/
def setEnabled (t : TraceSink) (on : Bool) : TraceSink :=
  { enabled := on, events := if on then t.events else #[] }

def drain (t : TraceSink) : List TraceEvent × TraceSink :=
  (t.events.toList, { t with events := #[] })

end TraceSink

/-- A trace event with a number that is never used again, and the time at which it was captured. -/
structure TraceRecord where
  id : Nat
  time : Binary64
  event : TraceEvent
deriving DecidableEq, Inhabited

structure TraceBuffer where
  records : List TraceRecord := []
  maxSize : Nat := 10000
  nextId : Nat := 0
deriving DecidableEq, Inhabited

namespace TraceBuffer

def ofSize (maxSize : Nat) : TraceBuffer := { maxSize }

/-- Adds a record and drops the oldest ones beyond the bound. One record is always kept. -/
def push (b : TraceBuffer) (time : Binary64) (event : TraceEvent) : TraceRecord × TraceBuffer :=
  let record : TraceRecord := ⟨b.nextId, time, event⟩
  let excess := b.records.length + 1 - max 1 b.maxSize
  (record, { b with records := b.records.drop excess ++ [record], nextId := b.nextId + 1 })

def resize (b : TraceBuffer) (maxSize : Nat) : TraceBuffer :=
  { b with maxSize, records := b.records.drop (b.records.length - maxSize) }

def clear (b : TraceBuffer) : TraceBuffer := { b with records := [] }

def recent (b : TraceBuffer) (count : Nat) : List TraceRecord :=
  b.records.drop (b.records.length - count)

def between (b : TraceBuffer) (start stop : Binary64) : List TraceRecord :=
  b.records.filter fun r => start.numLe r.time && r.time.numLe stop

def ofKind (b : TraceBuffer) (kind : String) : List TraceRecord :=
  b.records.filter (·.event.kind = kind)

def oldestTime? (b : TraceBuffer) : Option Binary64 := b.records.head?.map (·.time)

def newestTime? (b : TraceBuffer) : Option Binary64 := b.records.getLast?.map (·.time)

end TraceBuffer

end RuleSim
