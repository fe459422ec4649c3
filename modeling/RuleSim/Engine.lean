import RuleSim.Content.Merge
import RuleSim.Execution.Event
import RuleSim.Watchdog

namespace RuleSim

def Event.isHeartbeat (e : Event) : Bool := e.type = Watchdog.heartbeatEvent

structure StepOutcome where
  /-- The event that was handled; a heartbeat only if the bound on heartbeats was reached or nothing
  else was left. -/
  event : Event
  time : Binary64
  report : EventReport
  heartbeats : Nat

structure Engine extends Stage where
  rules : RuleSet := {}
  seed : UInt64
  limits : ExecutionLimits
  watchdog : Watchdog

namespace Engine

def new (seed : UInt64) (limits : ExecutionLimits) (watchdog : WatchdogConfig) : Engine :=
  { random := Random.ofSeed seed, seed, limits, watchdog := .ofConfig watchdog }

def time (e : Engine) : Binary64 := e.scheduler.now

def onContent {α : Type} (x : EStateM Error Content α) : EStateM Error Engine α := fun e =>
  match x ⟨e.world, e.rules⟩ with
  | .ok a c => .ok a { e with world := c.world, rules := c.rules }
  | .error err c => .error err { e with world := c.world, rules := c.rules }

def install (m : Module) : EStateM Error Engine InstallReport := onContent (Content.install m)

def merge (m : Module) (options : MergeOptions) : EStateM Error Engine MergeReport :=
  onContent (Content.merge m options)

def spawnAll (ds : List EntityDecl) : EStateM Error Engine (List EntityId) :=
  onContent (Content.onWorld (World.spawnAll ds))

def modifyWorld (e : Engine) (f : World → World) : Engine := { e with world := f e.world }

def setTracing (e : Engine) (on : Bool) : Engine := { e with trace := e.trace.setEnabled on }

def schedule (e : Engine) (type : String) (delay : Binary64) (payload : Payload) : Nat × Engine :=
  let (id, scheduler) := e.scheduler.schedule type delay payload
  (id, { e with scheduler })

def armWatchdog (e : Engine) : Except Error Engine := do
  let (watchdog, scheduler) ← e.watchdog.arm e.scheduler
  return { e with watchdog, scheduler }

def disarmWatchdog (e : Engine) : Engine :=
  let (watchdog, scheduler) := e.watchdog.disarm e.scheduler
  { e with watchdog, scheduler }

/-- Replaces the supervisor; the heartbeat of the earlier one is cancelled. -/
def setWatchdog (e : Engine) (watchdog : Watchdog) : Engine := { e.disarmWatchdog with watchdog }

/-- Cancels a pending event, and says whether there was one. To cancel the heartbeat is to disarm
the supervisor. -/
def cancel (e : Engine) (id : Nat) : Bool × Engine :=
  if e.watchdog.heartbeat = some id then (true, e.disarmWatchdog)
  else
    let (found, scheduler) := e.scheduler.cancel id
    (found, { e with scheduler })

/-- Runs the rules that an event triggers. The event need not come from the queue. -/
def process (e : Engine) (event : Event) : EventReport × Engine :=
  let (stage, report) := Execution.runEvent e.rules e.limits event e.toStage
  (report, { e with toStage := stage })

def take? (e : Engine) : Option (Event × Engine) :=
  e.scheduler.pop?.map fun (event, scheduler) =>
    let trace := e.trace.record (.eventFired event.id event.type event.time)
    (event, { e with scheduler, trace })

def heartbeat (e : Engine) : Engine :=
  let (_, watchdog, scheduler, trace) := e.watchdog.onHeartbeat e.world e.scheduler e.trace
  { e with watchdog, scheduler, trace }

/-- Processes an event of the simulation. A change of the world counts as progress. -/
def handle (e : Engine) (event : Event) : EventReport × Engine :=
  let (report, after) := e.process event
  if after.world.revision = e.world.revision then (report, after)
  else (report, { after with watchdog := after.watchdog.noteProgress })

/-- A step that has handled `taken` heartbeats so far, and may handle `more` of them after the next
one. -/
def stepAfter (e : Engine) (taken : Nat) (more : Nat) : Option StepOutcome × Engine :=
  match e.take? with
  | none => (none, e)
  | some (event, e) =>
    if event.isHeartbeat then
      let e := e.heartbeat
      let outcome : StepOutcome := { event, time := e.time, report := {}, heartbeats := taken + 1 }
      match more with
      | 0 => (some outcome, e)
      | more + 1 => if e.scheduler.isEmpty then (some outcome, e) else stepAfter e (taken + 1) more
    else
      let (report, e) := e.handle event
      (some { event, time := e.time, report, heartbeats := taken }, e)

/-- Takes out and handles the next event; nothing happens if there is none. At least one heartbeat
is allowed. -/
def step (e : Engine) : Option StepOutcome × Engine :=
  e.stepAfter 0 (e.watchdog.config.maxConsecutiveHeartbeats - 1)

/-- Drops events and entities, and sets the clock and the random source back. What is loaded
stays. -/
def reset (e : Engine) : Engine :=
  { e with
    scheduler := e.scheduler.reset
    watchdog := e.watchdog.forget
    world := e.world.clearEntities
    random := Random.ofSeed e.seed
    trace := e.trace.drain.2 }

def clear (e : Engine) : Engine :=
  let e := e.reset
  { e with world := e.world.clear, rules := {} }

end Engine

end RuleSim
