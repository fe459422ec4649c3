import RuleSim.Document
import RuleSim.Heap

namespace RuleSim

structure Payload where
  source : Option EntityId := none
  target : Option EntityId := none
  fields : Fields Value := []
deriving DecidableEq, Inhabited

structure Event where
  /-- Stays the same when a recurring event is queued again. -/
  id : Nat
  type : String
  time : Binary64
  payload : Payload
  /-- Counts all queuings, and so orders the events of one time. -/
  sequence : Nat
  interval : Option Binary64
deriving DecidableEq, Inhabited

namespace Event

def isRecurring (e : Event) : Bool := e.interval.isSome

def precedes (a b : Event) : Bool :=
  match a.time.totalCompare b.time with
  | .lt => true
  | .eq => a.sequence < b.sequence
  | .gt => false

end Event

structure Scheduler where
  heap : Array Event := #[]
  now : Binary64 := Binary64.zero
  nextId : Nat := 0
  nextSequence : Nat := 0
deriving DecidableEq, Inhabited

namespace Scheduler

def empty : Scheduler := {}

def size (s : Scheduler) : Nat := s.heap.size

def isEmpty (s : Scheduler) : Bool := s.heap.isEmpty

def peek? (s : Scheduler) : Option Event := s.heap[0]?

def enqueue (s : Scheduler) (e : Event) : Scheduler :=
  { s with
    heap := Heap.push Event.precedes s.heap { e with sequence := s.nextSequence }
    nextSequence := s.nextSequence + 1 }

def add (s : Scheduler) (type : String) (time : Binary64) (payload : Payload)
    (interval : Option Binary64) : Nat × Scheduler :=
  let e : Event := { id := s.nextId, type, time, payload, sequence := 0, interval }
  (s.nextId, { s.enqueue e with nextId := s.nextId + 1 })

/-- A delay that is not positive is none. -/
def delayOf (x : Binary64) : Binary64 := if Binary64.zero.numLt x then x else Binary64.zero

def schedule (s : Scheduler) (type : String) (delay : Binary64) (payload : Payload) :
    Nat × Scheduler :=
  s.add type (s.now + delayOf delay) payload none

/-- Queues an event for a time, or for now if that is past. -/
def scheduleAt (s : Scheduler) (type : String) (time : Binary64) (payload : Payload) :
    Nat × Scheduler :=
  s.add type (if s.now.numLt time then time else s.now) payload none

def scheduleNow (s : Scheduler) (type : String) (payload : Payload) : Nat × Scheduler :=
  s.add type s.now payload none

/-- Only a positive and finite interval lets time advance. -/
def validInterval (x : Binary64) : Bool := x.isFinite && Binary64.zero.numLt x

def scheduleRecurringAfter (s : Scheduler) (type : String) (delay interval : Binary64)
    (payload : Payload) : Except Error (Nat × Scheduler) :=
  if validInterval interval then
    .ok (s.add type (s.now + delayOf delay) payload (some interval))
  else
    .error ⟨.invalidState "schedule a recurring event"
      ("interval is " ++ Layout.plain.text interval), none⟩

def scheduleRecurring (s : Scheduler) (type : String) (interval : Binary64) (payload : Payload) :
    Except Error (Nat × Scheduler) :=
  s.scheduleRecurringAfter type interval interval payload

/-- Takes the next event out and moves the clock to it. A recurring event is queued again. -/
def pop? (s : Scheduler) : Option (Event × Scheduler) :=
  match Heap.pop? Event.precedes s.heap with
  | none => none
  | some (e, heap) =>
    let s := { s with heap, now := if s.now.numLt e.time then e.time else s.now }
    match e.interval with
    | none => some (e, s)
    | some interval => some (e, s.enqueue { e with time := e.time + interval })

def indexOf? (s : Scheduler) (id : Nat) : Option (Fin s.heap.size) :=
  s.heap.findFinIdx? (·.id = id)

def cancel (s : Scheduler) (id : Nat) : Bool × Scheduler :=
  match s.indexOf? id with
  | none => (false, s)
  | some i => (true, { s with heap := Heap.removeAt Event.precedes s.heap i i.isLt })

/-- Drops all pending events; the clock and the counters stay. -/
def clear (s : Scheduler) : Scheduler := { s with heap := #[] }

def reset (_ : Scheduler) : Scheduler := empty

def hasPending (s : Scheduler) (type : String) : Bool := s.heap.any (·.type = type)

def hasPendingExcept (s : Scheduler) (type : String) : Bool := s.heap.any (·.type ≠ type)

def pending (s : Scheduler) : List Event :=
  s.heap.toList.mergeSort fun a b => !b.precedes a

end Scheduler

end RuleSim
