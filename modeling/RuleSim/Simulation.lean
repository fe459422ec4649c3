import RuleSim.Document.Load
import RuleSim.Subscribers

namespace RuleSim

structure RunSummary where
  events : Nat := 0
  heartbeats : Nat := 0
  time : Binary64 := Binary64.zero
  completed : Bool := false
  reachedTimeLimit : Bool := false
deriving DecidableEq, Inhabited

structure RunLimits where
  maxEvents : Option Nat := none
  maxTime : Option Binary64 := none
deriving DecidableEq, Inhabited

structure Simulation where
  config : Config
  engine : Engine
  phase : Phase := .idle
  modules : List String := []
  initialEntities : List EntityDecl := []
  subscribers : Subscribers := {}
  trace : TraceBuffer

/-- An operation of the host. When it fails it may have changed the simulation. -/
abbrev Host := EStateM Error Simulation

namespace Simulation

def new (config : Config) : Simulation where
  config := config
  engine := (Engine.new config.seed config.limits config.watchdog).setTracing config.trace.enabled
  trace := TraceBuffer.ofSize config.trace.bufferSize

def world (s : Simulation) : World := s.engine.world

def time (s : Simulation) : Binary64 := s.engine.time

def pendingEvents (s : Simulation) : Nat := s.engine.scheduler.size

def snapshot (s : Simulation) : Snapshot := s.world.snapshot s.time

def isTracing (s : Simulation) : Bool := s.engine.trace.enabled

def onEngine {α : Type} (x : EStateM Error Engine α) : Host α := fun s =>
  match x s.engine with
  | .ok a engine => .ok a { s with engine }
  | .error e engine => .error e { s with engine }

def modifyEngine (f : Engine → Engine) : Host Unit :=
  modify fun s => { s with engine := f s.engine }

def notify (n : Notification) : Host Unit :=
  modify fun s => { s with subscribers := s.subscribers.notify n }

def enter (phase : Phase) : Host Unit := do
  let s ← get
  if s.phase ≠ phase then
    set { s with phase }
    notify (.stateChanged s.phase phase)

def refuse {α : Type} (operation : String) : Host α := do
  throw ⟨.invalidState operation (← get).phase.text, none⟩

def requireNotRunning (operation : String) : Host Unit := do
  if (← get).phase = .running then refuse operation

/-- Loads a module in the place of all that was loaded. Nothing stays of a load that fails. -/
def load (m : Module) : Host Unit := do
  requireNotRunning "load a module"
  modify fun s => { s with engine := s.engine.clear, trace := s.trace.clear }
  let s ← get
  match Engine.install m s.engine with
  | .error e engine =>
    set { s with engine := engine.clear, modules := [], initialEntities := [] }
    throw e
  | .ok _ engine =>
    set { s with engine, modules := [m.name], initialEntities := m.initialEntities }
    enter .idle
    notify (.loaded m.name)

def loadDocument (doc : Except Error Module) : Host Unit :=
  match doc with
  | .ok m => load m
  | .error e => throw e

def setInitialEntities (ds : List EntityDecl) : Host (List EntityId) := do
  requireNotRunning "set initial entities"
  modify fun s =>
    { s with engine := s.engine.modifyWorld World.clearEntities, initialEntities := ds }
  onEngine (Engine.spawnAll ds)

/-- The initial entities of a merged module that a reset has to bring back, too. -/
def newEntities (known ds : List EntityDecl) : List EntityDecl :=
  ds.filter fun d => d.id.isNone || !(known.map (·.id)).contains d.id

def merge (m : Module) (options : MergeOptions) : Host MergeReport := do
  requireNotRunning "merge"
  let report ← onEngine (Engine.merge m options)
  modify fun s => { s with
    initialEntities :=
      if options.mergeEntities then
        s.initialEntities ++ newEntities s.initialEntities m.initialEntities
      else s.initialEntities
    modules := s.modules ++ [m.name] }
  notify (.merged m.name report)
  return report

def armWatchdog : Host Unit := do
  let s ← get
  match s.engine.armWatchdog with
  | .ok engine => set { s with engine }
  | .error e => throw e

def start : Host Unit := do
  if (← get).phase ≠ .running then
    armWatchdog
    enter .running

def pause : Host Unit := do
  if (← get).phase = .running then enter .paused else refuse "pause"

def resume : Host Unit := do
  if (← get).phase = .paused then
    armWatchdog
    enter .running
  else refuse "resume"

def stop : Host Unit := do
  modifyEngine Engine.disarmWatchdog
  enter .stopped

/-- Drops events, time and entities, and creates the initial entities. What is loaded stays. -/
def reset : Host Unit := do
  modify fun s => { s with engine := s.engine.reset, trace := s.trace.clear }
  let _ ← onEngine (Engine.spawnAll (← get).initialEntities)
  enter .idle
  notify .reset

/-- Drops all subscribers and trace records; tracing goes back to its setting. -/
def teardown : Host Unit :=
  modify fun s => { s with
    subscribers := s.subscribers.clear
    trace := s.trace.clear
    engine := s.engine.setTracing s.config.trace.enabled }

def capture (time : Binary64) (s : Simulation) (e : TraceEvent) : Simulation :=
  let (record, trace) := s.trace.push time e
  { s with trace, subscribers := s.subscribers.notifyTrace record }

def flushTrace : Host Unit :=
  modify fun s =>
    let (events, sink) := s.engine.trace.drain
    events.foldl (capture s.time) { s with engine := { s.engine with trace := sink } }

/-- Handles one event, or nothing if none is pending. If rules failed, all failures are told and the
first is the error of the step; the effects of the others stay. -/
def step : Host (Option StepOutcome) := do
  let s ← get
  if s.phase = .paused ∨ s.phase = .stopped then refuse "step"
  let (outcome, engine) := s.engine.step
  set { s with engine }
  flushTrace
  match outcome with
  | none =>
    notify (.completed engine.time)
    return none
  | some outcome =>
    notify (.step outcome.event outcome.time)
    outcome.report.failures.forM fun f => notify (.ruleFailed f)
    match outcome.report.failures with
    | [] => return some outcome
    | f :: _ => throw f.error

def isPast (s : Simulation) (horizon : Option Binary64) : Bool :=
  match horizon, s.engine.scheduler.peek? with
  | some horizon, some next => horizon.numLt next.time
  | _, _ => false

def runFrom (horizon : Option Binary64) (summary : RunSummary) : (remaining : Nat) → Host RunSummary
  | 0 => pure summary
  | remaining + 1 => do
    if (← get).isPast horizon then return { summary with reachedTimeLimit := true }
    match ← step with
    | none => return { summary with completed := true }
    | some outcome =>
      let summary := { summary with
        events := summary.events + 1
        heartbeats := summary.heartbeats + outcome.heartbeats }
      runFrom horizon summary remaining

/-- The most events of a run for which no bound is given. A schedule that refills itself can go on
for ever, and such a run is cut off here and not said to be completed. -/
def maxEvents : Nat := 2 ^ 64

/-- Takes steps until nothing is pending, a limit is reached or a step fails. Without a bound of its
own the run ends after `maxEvents` steps, where otherwise nothing would end it. -/
def run (limits : RunLimits) : Host RunSummary := do
  let summary ← runFrom limits.maxTime {} (limits.maxEvents.getD maxEvents)
  return { summary with time := (← get).time }

/-- Schedules an event. While the simulation runs, a supervisor that gave up is armed again. -/
def schedule (type : String) (delay : Binary64) (payload : Payload) : Host Nat := do
  let s ← get
  let (id, engine) := s.engine.schedule type delay payload
  set { s with engine }
  if s.phase = .running then armWatchdog
  return id

def cancel (id : Nat) : Host Bool := do
  let s ← get
  let (found, engine) := s.engine.cancel id
  set { s with engine }
  return found

def setField (id : EntityId) (component field : String) (v : Value) : Host Unit := do
  let s ← get
  match s.world.setField id component field v with
  | .ok world => set { s with engine := { s.engine with world } }
  | .error e => throw e

def subscribe (react : Nat → Notification → Reaction) : Host Nat := do
  let s ← get
  let (id, subscribers) := s.subscribers.subscribe react
  set { s with subscribers }
  return id

def subscribeTrace (react : Nat → TraceRecord → Reaction) : Host Nat := do
  let s ← get
  let (id, subscribers) := s.subscribers.subscribeTrace react
  set { s with subscribers, engine := s.engine.setTracing true }
  return id

def unsubscribe (id : Nat) : Host Bool := do
  let s ← get
  let (found, subscribers) := s.subscribers.unsubscribe id
  set { s with subscribers }
  return found

def setTracing (on : Bool) : Host Unit := modifyEngine (·.setTracing on)

end Simulation

end RuleSim
