import RuleSim.Execution.Action

namespace RuleSim

structure RuleFailure where
  rule : String
  entity : EntityId
  error : Error

structure EventReport where
  matched : Nat := 0
  /-- Pairs whose condition held and whose actions succeeded. -/
  triggered : Nat := 0
  failures : List RuleFailure := []

def EventReport.isOk (r : EventReport) : Bool := r.failures.isEmpty

namespace Execution

def passesFilter (w : World) (id : EntityId) (filter : List String) : Bool :=
  w.hasEntity id && filter.all (w.hasComponent id ·)

/-- The first of the event slots, other than the source, that holds an entity passing the filter. -/
def boundCandidate? (c : Scope) (w : World) (filter : List String) : List String → Option EntityId
  | [] => none
  | slot :: slots =>
    if slot = "source" then boundCandidate? c w filter slots
    else
      match (c.slot slot).asEntity?.filter (passesFilter w · filter) with
      | some id => some id
      | none => boundCandidate? c w filter slots

/-- The entities that a rule runs on: the source if it is bound, else the first bound entity, in
each case if it passes the filter; else all entities that carry the components of the filter. -/
def candidates (c : Scope) (w : World) (rule : Rule) : List EntityId :=
  let filter := rule.decl.requiredComponents
  let slots := rule.decl.trigger.bindings.map (·.2)
  let source := if "source" ∈ slots then c.event.payload.source else none
  match source.filter (passesFilter w · filter) with
  | some id => [id]
  | none =>
    match boundCandidate? c w filter slots with
    | some id => [id]
    | none => w.query filter

def initialLocals (c : Scope) (rule : Rule) (id : EntityId) : Fields Value :=
  rule.decl.trigger.bindings.foldl (fun locals (name, slot) => Table.put locals name (c.slot slot))
    [("entity", .entity id)]

def runRule (c : Scope) (rule : Rule) (id : EntityId) : Exec Bool := do
  modify fun s => { s with locals := initialLocals c rule id, frames := [] }
  let holds ← match rule.decl.condition with
    | none => pure true
    | some condition => do pure (← evaluate c condition).truthy
  if holds then
    record (.ruleTriggered c.rule id)
    runActions c rule.decl.actions
  return holds

/-- A rule that fails is reported, and keeps what it has done so far. -/
def attempt (c : Scope) (rule : Rule) (id : EntityId) (s : State) (r : EventReport) :
    State × EventReport :=
  match runRule c rule id s with
  | .ok holds s => (s, { r with triggered := if holds then r.triggered + 1 else r.triggered })
  | .error e s =>
    let error := e.inRule c.rule c.event.type id
    ({ s with trace := s.trace.record (.ruleFailed c.rule id error.message) },
      { r with failures := r.failures ++ [⟨c.rule, id, error⟩] })

/-- Runs a rule on its candidates; those that died meanwhile are passed over. -/
def runOn (c : Scope) (rule : Rule) : List EntityId → State → EventReport → State × EventReport
  | [], s, r => (s, r)
  | id :: ids, s, r =>
    if s.world.hasEntity id then
      let s := { s with trace := s.trace.record (.ruleMatched c.rule id) }
      let (s, r) := attempt c rule id s { r with matched := r.matched + 1 }
      runOn c rule ids s r
    else runOn c rule ids s r

def runRules (c : Scope) : List Rule → State → EventReport → State × EventReport
  | [], s, r => (s, r)
  | rule :: rules, s, r =>
    let c := { c with rule := rule.name }
    let (s, r) := runOn c rule (candidates c s.world rule) s r
    runRules c rules s r

def runEvent (rules : RuleSet) (limits : ExecutionLimits) (event : Event) (stage : Stage) :
    Stage × EventReport :=
  let (s, r) := runRules { rules, limits, event } (rules.rulesFor event.type) { stage with } {}
  (s.toStage, r)

end Execution

end RuleSim
