import RuleSim.Execution.State

namespace RuleSim.Execution

abbrev Invoke := (name : String) → (params : List Param) → (body : Expr) → List Value → Exec Value

def writeFields (id : EntityId) (component : String) : Fields Value → Exec Unit
  | [] => pure ()
  | (field, v) :: rest => do
    changeWorld (·.setField id component field v)
    writeFields id component rest

mutual

def eval (c : Scope) (invoke : Invoke) : Expr → Exec Value
  | .literal v => pure v
  | .var name => do return c.lookUp (← get) name
  | .param name => do return c.lookUp (← get) name
  | .field e component field => do
    match ← resolve c invoke e with
    | some id => return readField (← get).world id component field
    | none => return .null
  | .binary .and l r => do
    if (← eval c invoke l).truthy then return .bool (← eval c invoke r).truthy
    else return .bool false
  | .binary .or l r => do
    if (← eval c invoke l).truthy then return .bool true
    else return .bool (← eval c invoke r).truthy
  | .binary op l r => do
    let a ← eval c invoke l
    let b ← eval c invoke r
    lift (Value.binary op a b)
  | .unary .negate e => do
    let v ← eval c invoke e
    lift v.negate
  | .unary .not e => do return .bool !(← eval c invoke e).truthy
  | .call function args =>
    match Builtin.ofName? function with
    | some f => do
      let values ← evalArgs c invoke args
      let s ← get
      let (v, random) ← lift (f.call values s.random)
      set { s with random }
      return v
    | none =>
      match c.rules.function? function with
      | some f => do
        let values ← evalArgs c invoke args
        invoke function f.params f.body values
      | none => fail (.unknownFunction function)
  | .choice condition whenTrue whenFalse => do
    if (← eval c invoke condition).truthy then eval c invoke whenTrue else eval c invoke whenFalse
  | .clone e overrides => do
    match ← resolve c invoke e with
    | some source =>
      let copy ← onWorld (·.clone source none)
      record (.entitySpawned copy)
      override c invoke copy overrides
      return .entity copy
    | none => return .null
  | .boundCall e function args => do
    match ← resolve c invoke e with
    | some id =>
      let f ← onWorld fun w => (w.resolveBound id function).map (·, w)
      let values ← evalArgs c invoke args
      invoke (function ++ "@" ++ id.text) f.params f.body values
    | none => return .null

def resolve (c : Scope) (invoke : Invoke) : EntityRef → Exec (Option EntityId)
  | .named name => do
    let s ← get
    return liveEntity? s.world (c.lookUp s name)
  | .computed e => do
    let v ← eval c invoke e
    return liveEntity? (← get).world v

def evalArgs (c : Scope) (invoke : Invoke) : List Expr → Exec (List Value)
  | [] => pure []
  | e :: es => do
    let v ← eval c invoke e
    return v :: (← evalArgs c invoke es)

def evalFields (c : Scope) (invoke : Invoke) : List (String × Expr) → Exec (Fields Value)
  | [] => pure []
  | (name, e) :: rest => do
    let v ← eval c invoke e
    return (name, v) :: (← evalFields c invoke rest)

def override (c : Scope) (invoke : Invoke) (copy : EntityId) :
    List (String × List (String × Expr)) → Exec Unit
  | [] => pure ()
  | (component, fields) :: rest => do
    let values ← evalFields c invoke fields
    writeFields copy component values
    override c invoke copy rest

end

/-- The parameters of a call; of two parameters of one name the later counts. -/
def frameOf (params : List Param) (args : List Value) : Fields Value :=
  (params.zip args).foldl (fun frame (p, v) => Table.put frame p.name v) []

/-- Runs `body` in a new innermost frame, which is dropped afterwards in any case. An error that
comes out of it is noted with the name of the call. -/
def inFrame (name : String) (frame : Fields Value) (body : Exec Value) : Exec Value := fun s =>
  match body { s with frames := frame :: s.frames } with
  | .ok v s => .ok v { s with frames := s.frames.tail }
  | .error e s => .error (e.inFrame name) { s with frames := s.frames.tail }

def enter (c : Scope) (name : String) (params : List Param) (args : List Value)
    (body : Exec Value) : Exec Value := do
  if params.length ≠ args.length then
    fail (.arityMismatch name (toString params.length) args.length)
  else if c.limits.callDepth ≤ (← get).frames.length then
    fail (.limitExceeded (.callDepth c.limits.callDepth (some name)))
  else inFrame name (frameOf params args) body

/-- Runs function bodies with `depth` more calls allowed inside them. A rule starts without frames
and each call adds one, so that at depth zero the bound on frames is reached too. -/
def invokeAt (c : Scope) : (depth : Nat) → Invoke
  | 0 => fun name params _ args =>
    enter c name params args (fail (.limitExceeded (.callDepth c.limits.callDepth (some name))))
  | depth + 1 => fun name params body args =>
    enter c name params args (eval c (invokeAt c depth) body)

def evaluate (c : Scope) (e : Expr) : Exec Value := eval c (invokeAt c c.limits.callDepth) e

def evaluateRef (c : Scope) (e : EntityRef) : Exec (Option EntityId) :=
  resolve c (invokeAt c c.limits.callDepth) e

def evaluateFields (c : Scope) (fields : Fields Expr) : Exec (Fields Value) :=
  evalFields c (invokeAt c c.limits.callDepth) fields

end RuleSim.Execution
