import RuleSim.Execution.Expr

namespace RuleSim.Execution

def evaluateNumber (c : Scope) (what : String) (e : Expr) : Exec (Option Binary64) := do
  match ← evaluate c e with
  | .null => return none
  | v =>
    match v.asNumber? with
    | some x => return some x
    | none => fail (.typeMismatch ("number for " ++ what) v.typeName)

/-- What a field holds before it is changed: its value, its default, or zero. -/
def currentValue (w : World) (id : EntityId) (component field : String) : Value :=
  match w.field? id component field with
  | some v => v
  | none => ((w.fieldSchema? component field).map (·.default)).getD (.int 0)

/-- Changes a field of a live entity. An operand that is null changes nothing. -/
def modifyField (c : Scope) (e : EntityRef) (component field : String) (op : ModifyOp)
    (value : Expr) : Exec Unit := do
  match ← evaluateRef c e with
  | none => return
  | some id =>
    let operand ← evaluate c value
    if operand.isNull then return
    let v ← match op.operator? with
      | none => pure operand
      | some op => lift (Value.binary op (currentValue (← get).world id component field) operand)
    changeWorld (·.setField id component field v)

inductive Slot where
  | absent
  | entity (id : EntityId)
  | unresolved

def evaluateSlot (c : Scope) : Option Expr → Exec Slot
  | none => pure .absent
  | some e => do
    let v ← evaluate c e
    match liveEntity? (← get).world v with
    | some id => return .entity id
    | none => return .unresolved

def Slot.id? : Slot → Option EntityId
  | .entity id => some id
  | _ => none

def addEvent (type : String) (delay : Binary64) (interval : Option Binary64) (payload : Payload) :
    Exec Unit := do
  let s ← get
  match interval with
  | none => set { s with scheduler := (s.scheduler.schedule type delay payload).2 }
  | some interval =>
    match s.scheduler.scheduleRecurringAfter type delay interval payload with
    | .ok (_, scheduler) => set { s with scheduler }
    | .error e => throw e

def optionalNumber (c : Scope) (what : String) : Option Expr → Exec (Option Binary64)
  | none => pure none
  | some e => evaluateNumber c what e

/-- Queues an event, unless its source or target is given but not live. -/
def scheduleEvent (c : Scope) (spec : EventSpec) (delay interval : Option Expr) : Exec Unit := do
  match ← evaluateSlot c spec.source with
  | .unresolved => return
  | source =>
    match ← evaluateSlot c spec.target with
    | .unresolved => return
    | target =>
      let fields ← evaluateFields c spec.fields
      let delay ← optionalNumber c "delay" delay
      let interval ← optionalNumber c "interval" interval
      addEvent spec.event (delay.getD Binary64.zero) interval
        { source := source.id?, target := target.id?, fields }

def evaluateInits (c : Scope) : List ComponentInit → Exec (List (String × Fields Value))
  | [] => pure []
  | init :: rest => do
    let fields ← evaluateFields c init.fields
    return (init.name, fields) :: (← evaluateInits c rest)

def addComponents (id : EntityId) : List (String × Fields Value) → Exec Unit
  | [] => pure ()
  | (name, fields) :: rest => do
    changeWorld (·.addComponent id name fields)
    addComponents id rest

/-- Creates an entity. All fields are evaluated first, so that a failure there leaves no entity. -/
def spawnEntity (c : Scope) (components : List ComponentInit) : Exec Unit := do
  let inits ← evaluateInits c components
  let id ← onWorld fun w => .ok w.create
  addComponents id inits
  record (.entitySpawned id)

/-- Runs `body` while `condition` holds, at most `n` times; if it still holds then, `stopped`. -/
def repeatWhile (condition : Exec Bool) (body stopped : Exec Unit) : (n : Nat) → Exec Unit
  | 0 => do if ← condition then stopped
  | n + 1 => do
    if ← condition then
      body
      repeatWhile condition body stopped n

def forValues (name : String) (body : Exec Unit) : List Value → Exec Unit
  | [] => pure ()
  | v :: vs => do
    setLocal name v
    body
    forValues name body vs

def restoreLocal (name : String) (saved : Option Value) (s : State) : State :=
  { s with locals := match saved with
      | some v => Table.put s.locals name v
      | none => Table.erase s.locals name }

/-- Runs `body` and then restores a local, also after a failure. -/
def keepingLocal (name : String) (body : Exec Unit) : Exec Unit := fun s =>
  let saved := Table.find? s.locals name
  match body s with
  | .ok _ s => .ok () (restoreLocal name saved s)
  | .error e s => .error e (restoreLocal name saved s)

def forEach (c : Scope) (name : String) (items : Expr) (body : Exec Unit) : Exec Unit := do
  match ← evaluate c items with
  | .null => return
  | .list values =>
    let limit := c.limits.loopIterations
    if limit < values.length then record (.limitReached c.rule (.loopIterations limit))
    keepingLocal name (forValues name body (values.take limit))
  | v => fail (.notIterable v.typeName)

mutual

def runAction (c : Scope) : Action → Exec Unit
  | .modify e component field op value => modifyField c e component field op value
  | .schedule spec delay interval => scheduleEvent c spec delay interval
  | .emit spec => scheduleEvent c spec none none
  | .spawn components => spawnEntity c components
  | .despawn e => do
    match ← evaluateRef c e with
    | none => return
    | some id =>
      changeWorld (·.delete id)
      record (.entityDespawned id)
  | .addComponent e component => do
    match ← evaluateRef c e with
    | none => return
    | some id =>
      let fields ← evaluateFields c component.fields
      changeWorld (·.addComponent id component.name fields)
  | .removeComponent e component => do
    match ← evaluateRef c e with
    | none => return
    | some id =>
      let _ ← onWorld (·.removeComponent id component)
  | .branch condition whenTrue whenFalse => do
    if (← evaluate c condition).truthy then runActions c whenTrue else runOptional c whenFalse
  | .each name items body => forEach c name items (runActions c body)
  | .bind name value => do
    let v ← evaluate c value
    setLocal name v
  | .repeatWhile condition body =>
    let limit := c.limits.whileIterations
    repeatWhile (do return (← evaluate c condition).truthy) (runActions c body)
      (record (.limitReached c.rule (.whileIterations limit))) limit

def runActions (c : Scope) : List Action → Exec Unit
  | [] => pure ()
  | a :: as => do
    runAction c a
    runActions c as

def runOptional (c : Scope) : Option (List Action) → Exec Unit
  | none => pure ()
  | some actions => runActions c actions

end

end RuleSim.Execution
