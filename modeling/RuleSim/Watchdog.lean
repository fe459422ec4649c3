import RuleSim.Config
import RuleSim.Scheduler
import RuleSim.Trace
import RuleSim.World

namespace RuleSim

/-- Says which entities are stuck, each with the entity it is after. -/
abbrev Heuristic := World → List (EntityId × Option EntityId)

namespace Heuristic

def isAlive (c : WatchdogConfig) (w : World) (id : EntityId) : Bool :=
  match (w.field? id c.healthComponent c.healthField).bind Value.asNumber? with
  | some health => Binary64.zero.numLt health
  | none => false

def aliveTarget? (c : WatchdogConfig) (w : World) (id : EntityId) : Option EntityId := do
  guard (isAlive c w id)
  let target ← (← w.field? id c.targetComponent c.targetField).asEntity?
  guard (w.hasEntity target && isAlive c w target)
  return target

/-- An entity is stuck if it is alive and its target is alive. -/
def combatants (c : WatchdogConfig) : Heuristic := fun w =>
  (w.query [c.healthComponent, c.targetComponent]).filterMap fun id =>
    (aliveTarget? c w id).map fun target => (id, some target)

end Heuristic

inductive HeartbeatOutcome where
  | idle
  | dormant
  | exhausted
  | recovered (count : Nat)
deriving DecidableEq, Inhabited

structure Watchdog where
  config : WatchdogConfig
  heuristic : Heuristic
  heartbeat : Option Nat := none
  /-- Rounds of recovery since anything changed. -/
  unproductive : Nat := 0

namespace Watchdog

def heartbeatEvent : String := "__watchdog__"

def ofConfig (config : WatchdogConfig) : Watchdog :=
  { config, heuristic := Heuristic.combatants config }

def isArmed (d : Watchdog) : Bool := d.heartbeat.isSome

/-- Schedules the heartbeat, unless it is scheduled already or switched off. -/
def arm (d : Watchdog) (s : Scheduler) : Except Error (Watchdog × Scheduler) :=
  if !d.config.isActive || d.isArmed then .ok (d, s)
  else do
    let (id, s) ← s.scheduleRecurring heartbeatEvent d.config.interval {}
    return ({ d with heartbeat := some id, unproductive := 0 }, s)

def noteProgress (d : Watchdog) : Watchdog := { d with unproductive := 0 }

def disarm (d : Watchdog) (s : Scheduler) : Watchdog × Scheduler :=
  match d.heartbeat with
  | none => (d, s)
  | some id => ({ d with heartbeat := none }, (s.cancel id).2)

def forget (d : Watchdog) : Watchdog := { d with heartbeat := none, unproductive := 0 }

def recover (d : Watchdog) (s : Scheduler) (t : TraceSink) :
    List (EntityId × Option EntityId) → Scheduler × TraceSink
  | [] => (s, t)
  | (source, target) :: rest =>
    let (_, s) := s.schedule d.config.recoveryEvent d.config.recoveryDelay
      { source := some source, target }
    recover d s (t.record (.recoveryScheduled d.config.recoveryEvent source target)) rest

/-- A heartbeat that finds nothing else pending schedules recovery for the entities that are stuck.
After some rounds that changed nothing the supervisor gives up. -/
def onHeartbeat (d : Watchdog) (w : World) (s : Scheduler) (t : TraceSink) :
    HeartbeatOutcome × Watchdog × Scheduler × TraceSink :=
  if s.hasPendingExcept heartbeatEvent then (.idle, d, s, t)
  else
    let stalled := d.heuristic w
    if stalled.isEmpty then
      let (d, s) := d.disarm s
      (.dormant, d, s, t)
    else if d.config.maxUnproductiveRecoveries ≤ d.unproductive then
      let (d, s) := d.disarm s
      (.exhausted, d, s, t)
    else
      let d := { d with unproductive := d.unproductive + 1 }
      let (s, t) := d.recover s t stalled
      (.recovered stalled.length, d, s, t)

end Watchdog

end RuleSim
