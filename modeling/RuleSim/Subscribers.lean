import RuleSim.Engine

namespace RuleSim

inductive Phase where
  | idle
  | running
  | paused
  | stopped
deriving DecidableEq, Inhabited

def Phase.text : Phase → String
  | idle => "idle"
  | running => "running"
  | paused => "paused"
  | stopped => "stopped"

inductive Notification where
  | loaded (module : String)
  | merged (module : String) (report : MergeReport)
  | stateChanged (before after : Phase)
  | step (event : Event) (time : Binary64)
  | ruleFailed (failure : RuleFailure)
  | completed (time : Binary64)
  | reset

def Notification.kind : Notification → String
  | loaded _ => "loaded"
  | merged .. => "merged"
  | stateChanged .. => "state_changed"
  | step .. => "step"
  | ruleFailed _ => "rule_failed"
  | completed _ => "completed"
  | reset => "reset"

inductive Reaction where
  | done
  | failed (cause : String)
  | panicked (cause : String)
deriving DecidableEq, Inhabited

/-- A subscriber decides by what it is told and by how often it was told something before. -/
structure Subscriber (α : Type) where
  id : Nat
  react : Nat → α → Reaction
  calls : Nat := 0

def Subscriber.call {α : Type} (s : Subscriber α) (a : α) : Reaction × Subscriber α :=
  (s.react s.calls a, { s with calls := s.calls + 1 })

inductive News where
  | note (n : Notification)
  | trace (r : TraceRecord)

structure Delivery where
  recipient : Nat
  news : News
  reaction : Reaction

structure Subscribers where
  nextId : Nat := 0
  lifecycle : List (Subscriber Notification) := []
  trace : List (Subscriber TraceRecord) := []
  /-- What was delivered since it was last collected, the latest first. -/
  deliveries : List Delivery := []

namespace Subscribers

def subscribe (s : Subscribers) (react : Nat → Notification → Reaction) : Nat × Subscribers :=
  (s.nextId,
    { s with nextId := s.nextId + 1, lifecycle := s.lifecycle ++ [{ id := s.nextId, react }] })

def subscribeTrace (s : Subscribers) (react : Nat → TraceRecord → Reaction) : Nat × Subscribers :=
  (s.nextId, { s with nextId := s.nextId + 1, trace := s.trace ++ [{ id := s.nextId, react }] })

def size (s : Subscribers) : Nat := s.lifecycle.length + s.trace.length

def isEmpty (s : Subscribers) : Bool := s.size = 0

def hasTrace (s : Subscribers) : Bool := !s.trace.isEmpty

def unsubscribe (s : Subscribers) (id : Nat) : Bool × Subscribers :=
  let rest := { s with
    lifecycle := s.lifecycle.filter (·.id ≠ id)
    trace := s.trace.filter (·.id ≠ id) }
  (rest.size ≠ s.size, rest)

def tell {α : Type} (news : α → News) (a : α) (deliveries : List Delivery) :
    List (Subscriber α) → List (Subscriber α) × List Delivery
  | [] => ([], deliveries)
  | s :: rest =>
    let (reaction, s) := s.call a
    let (rest, deliveries) := tell news a (⟨s.id, news a, reaction⟩ :: deliveries) rest
    (s :: rest, deliveries)

def notify (s : Subscribers) (n : Notification) : Subscribers :=
  let (lifecycle, deliveries) := tell .note n s.deliveries s.lifecycle
  { s with lifecycle, deliveries }

def notifyTrace (s : Subscribers) (r : TraceRecord) : Subscribers :=
  let (trace, deliveries) := tell .trace r s.deliveries s.trace
  { s with trace, deliveries }

/-- Drops all subscribers. Identifiers go on. -/
def clear (s : Subscribers) : Subscribers := { s with lifecycle := [], trace := [] }

def collect (s : Subscribers) : List Delivery × Subscribers :=
  (s.deliveries.reverse, { s with deliveries := [] })

end Subscribers

end RuleSim
