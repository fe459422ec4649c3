import RuleSim.Proofs.Execution.Outcome
import RuleSim.Proofs.World.Alike

namespace RuleSim

structure Stage.Alike (k : UInt64) (s t : Stage) : Prop where
  world : s.world.Alike k t.world
  scheduler : t.scheduler = s.scheduler
  random : t.random = s.random

namespace Execution

structure State.Alike (k : UInt64) (s t : State) : Prop where
  stage : s.toStage.Alike k t.toStage
  locals : t.locals = s.locals
  frames : t.frames = s.frames

/-- An expression reads the same in both states, as long as it calls nothing. -/
structure State.Near (k : UInt64) (s t : State) : Prop where
  world : s.world.Alike k t.world
  locals : t.locals = s.locals
  innermost : t.frames.head? = s.frames.head?

section Readers

variable {k : UInt64}

theorem State.Alike.world {s t : State} (h : s.Alike k t) : s.world.Alike k t.world := h.stage.world

theorem State.Alike.near {s t : State} (h : s.Alike k t) : s.Near k t :=
  ⟨h.world, h.locals, by rw [h.frames]⟩

theorem State.Near.param? {s t : State} (h : s.Near k t) (name : String) :
    t.param? name = s.param? name := by
  rw [State.param?, State.param?, h.innermost]

theorem State.Near.lookUp {s t : State} (h : s.Near k t) (c : Scope) (name : String) :
    c.lookUp t name = c.lookUp s name := by
  unfold Scope.lookUp Scope.global
  simp only [h.param?, h.locals, h.world.entityByName?]

theorem liveEntity?_alike {w v : World} (h : w.Alike k v) (x : Value) :
    liveEntity? v x = liveEntity? w x := by
  have hlive : v.hasEntity = w.hasEntity := funext h.hasEntity
  rw [liveEntity?, liveEntity?, hlive]

theorem readField_alike {w v : World} (h : w.Alike k v) (id : EntityId) (component field : String) :
    readField v id component field = readField w id component field := by
  unfold readField
  rw [h.field?, h.hasComponent, h.fieldSchema?]

theorem currentValue_alike {w v : World} (h : w.Alike k v) (id : EntityId)
    (component field : String) :
    currentValue v id component field = currentValue w id component field := by
  unfold currentValue
  rw [h.field?, h.fieldSchema?]

end Readers

end Execution

def EntityRef.parts : EntityRef → List Expr
  | .named _ => []
  | .computed e => [e]

def Expr.parts : Expr → List Expr
  | .literal _ | .var _ | .param _ => []
  | .field e _ _ => e.parts
  | .binary _ l r => [l, r]
  | .unary _ e => [e]
  | .call _ args => args
  | .choice condition whenTrue whenFalse => [condition, whenTrue, whenFalse]
  | .clone e overrides => e.parts ++ overrides.flatMap fun p => p.2.map (·.2)
  | .boundCall e _ args => e.parts ++ args

namespace Execution

abbrev Open (α : Type) := Invoke → Exec α

/-- A property of open executions that passes on to the evaluation of the expressions in a set,
copies aside. The set is closed under parts. -/
structure Sequential (c : Scope) (S : Expr → Prop) (Q : {α : Type} → Open α → Prop) : Prop where
  parts {e x : Expr} (he : S e) (hx : x ∈ e.parts) : S x
  pure {α : Type} (a : α) : Q fun _ => (pure a : Exec α)
  fail {α : Type} (kind : Error.Kind) : Q fun _ => (fail kind : Exec α)
  bind {α β : Type} {p : Open α} {f : α → Open β} (hp : Q p) (hf : ∀ a, Q (f a)) :
    Q fun i => p i >>= fun a => f a i
  read {α : Type} {f : State → α} (heq : ∀ k s t, State.Near k s t → f t = f s) :
    Q fun _ => (do return f (← get) : Exec α)
  builtin {function : String} {args : List Expr} (h : S (.call function args)) {f : Builtin}
    (hf : Builtin.ofName? function = some f) (values : List Value) :
    Q fun _ => draw (f.call values)
  call {function : String} {args : List Expr} (h : S (.call function args))
    (hn : Builtin.ofName? function = none) {f : FunctionDecl}
    (hf : c.rules.function? function = some f) (values : List Value) :
    Q fun i => i function f.params f.body values
  boundCall {e : EntityRef} {function : String} {args : List Expr}
    (h : S (.boundCall e function args)) (id : EntityId) {p : Open (List Value)} (hp : Q p) :
    Q fun i => do
      let f ← onWorld fun w => (w.resolveBound id function).map (·, w)
      let values ← p i
      i (function ++ "@" ++ id.text) f.params f.body values

/-- The same with copies. What is done to a copy while it is made may have a property of its own. -/
structure Constructive (c : Scope) (S : Expr → Prop) (Q : {α : Type} → Open α → Prop)
    (W : EntityId → {α : Type} → Open α → Prop) : Prop extends Sequential c S Q where
  evaluated (copy : EntityId) {α : Type} {p : Open α} (hp : Q p) : W copy p
  next {copy : EntityId} {α β : Type} {p : Open α} {f : α → Open β} (hp : W copy p)
    (hf : ∀ a, W copy (f a)) : W copy fun i => p i >>= fun a => f a i
  spawned {e : EntityRef} {overrides : List (String × List (String × Expr))}
    (h : S (.clone e overrides)) (copy : EntityId) : W copy fun _ => record (.entitySpawned copy)
  setField {e : EntityRef} {overrides : List (String × List (String × Expr))}
    (h : S (.clone e overrides)) (copy : EntityId) (component field : String) (v : Value) :
    W copy fun _ => changeWorld (·.setField copy component field v)
  clone {e : EntityRef} {overrides : List (String × List (String × Expr))}
    (h : S (.clone e overrides)) (source : EntityId) {f : EntityId → Open Value}
    (hf : ∀ copy, W copy (f copy)) : Q fun i => onWorld (·.clone source none) >>= fun copy => f copy i

structure Compositional (c : Scope) (S : Expr → Prop) (Q : {α : Type} → Open α → Prop) : Prop
    extends Sequential c S Q where
  clone {e : EntityRef} {overrides : List (String × List (String × Expr))}
    (h : S (.clone e overrides)) (source : EntityId) : Q fun _ => onWorld (·.clone source none)
  spawned {e : EntityRef} {overrides : List (String × List (String × Expr))}
    (h : S (.clone e overrides)) (copy : EntityId) : Q fun _ => record (.entitySpawned copy)
  setField {e : EntityRef} {overrides : List (String × List (String × Expr))}
    (h : S (.clone e overrides)) (id : EntityId) (component field : String) (v : Value) :
    Q fun _ => changeWorld (·.setField id component field v)

variable {c : Scope} {S : Expr → Prop} {Q : {α : Type} → Open α → Prop}

theorem Sequential.lift (h : Sequential c S Q) {α : Type} (x : Except Error.Kind α) :
    Q fun _ => lift x := by
  cases x with
  | ok a => exact h.pure a
  | error kind => exact h.fail kind

theorem Compositional.constructive (h : Compositional c S Q) :
    Constructive c S Q fun _ => Q where
  toSequential := h.toSequential
  evaluated _ _ _ hp := hp
  next := h.bind
  spawned := h.spawned
  setField := h.setField
  clone he source _ hf := h.bind (h.clone he source) hf

namespace Constructive

variable {W : EntityId → {α : Type} → Open α → Prop}

theorem writeFields (h : Constructive c S Q W) {e : EntityRef}
    {overrides : List (String × List (String × Expr))} (he : S (.clone e overrides))
    (copy : EntityId) (component : String) (fields : Fields Value) :
    W copy fun _ => writeFields copy component fields := by
  induction fields with
  | nil => exact h.evaluated copy (h.pure ())
  | cons p rest ih => exact h.next (h.setField he copy component p.1 p.2) fun _ => ih

mutual

theorem eval (h : Constructive c S Q W) : (e : Expr) → S e → Q fun i => eval c i e
  | .literal v, _ => by
      simp only [Execution.eval]
      exact h.pure v
  | .var name, _ | .param name, _ => by
      simp only [Execution.eval]
      exact h.read fun _ _ _ hs => hs.lookUp c name
  | .field e component field, he => by
      simp only [Execution.eval]
      refine h.bind (h.resolve e fun x hx => h.parts he hx) fun id => ?_
      cases id with
      | none => exact h.pure _
      | some id => exact h.read fun _ _ _ hs => readField_alike hs.world id component field
  | .binary op l r, he => by
      have hl := h.eval l (h.parts he (by simp [Expr.parts]))
      have hr := h.eval r (h.parts he (by simp [Expr.parts]))
      cases op with
      | and =>
          simp only [Execution.eval]
          refine h.bind hl fun v => ?_
          by_cases hv : v.truthy
          · simp only [hv, if_true]
            exact h.bind hr fun _ => h.pure _
          · simp only [hv]
            exact h.pure _
      | or =>
          simp only [Execution.eval]
          refine h.bind hl fun v => ?_
          by_cases hv : v.truthy
          · simp only [hv, if_true]
            exact h.pure _
          · simp only [hv]
            exact h.bind hr fun _ => h.pure _
      | _ =>
          simp only [Execution.eval]
          exact h.bind hl fun a => h.bind hr fun b => h.lift _
  | .unary op e, he => by
      have hx := h.eval e (h.parts he (by simp [Expr.parts]))
      cases op with
      | negate =>
          simp only [Execution.eval]
          exact h.bind hx fun v => h.lift _
      | not =>
          simp only [Execution.eval]
          exact h.bind hx fun v => h.pure _
  | .call function args, he => by
      have hargs := h.evalArgs args fun x hx => h.parts he hx
      simp only [Execution.eval]
      cases hn : Builtin.ofName? function with
      | some f => exact h.bind hargs fun values => h.builtin he hn values
      | none =>
          cases hf : c.rules.function? function with
          | some f => exact h.bind hargs fun values => h.call he hn hf values
          | none => exact h.fail _
  | .choice condition whenTrue whenFalse, he => by
      simp only [Execution.eval]
      refine h.bind (h.eval condition (h.parts he (by simp [Expr.parts]))) fun v => ?_
      by_cases hv : v.truthy
      · simp only [hv, if_true]
        exact h.eval whenTrue (h.parts he (by simp [Expr.parts]))
      · simp only [hv]
        exact h.eval whenFalse (h.parts he (by simp [Expr.parts]))
  | .clone e overrides, he => by
      simp only [Execution.eval]
      refine h.bind (h.resolve e fun x hx => h.parts he (List.mem_append_left _ hx)) fun id => ?_
      cases id with
      | none => exact h.pure _
      | some source =>
          refine h.clone he source fun copy => h.next (h.spawned he copy) fun _ => ?_
          refine h.next (h.override he copy overrides fun p hp q hq => ?_) fun _ =>
            h.evaluated copy (h.pure _)
          refine h.parts he (List.mem_append_right _ (List.mem_flatMap.mpr ⟨p, hp, ?_⟩))
          exact List.mem_map_of_mem hq
  | .boundCall e function args, he => by
      simp only [Execution.eval]
      refine h.bind (h.resolve e fun x hx => h.parts he (List.mem_append_left _ hx)) fun id => ?_
      cases id with
      | none => exact h.pure _
      | some id =>
          exact h.boundCall he id
            (h.evalArgs args fun x hx => h.parts he (List.mem_append_right _ hx))

theorem resolve (h : Constructive c S Q W) :
    (e : EntityRef) → (∀ x ∈ e.parts, S x) → Q fun i => resolve c i e
  | .named name, _ => by
      simp only [Execution.resolve]
      exact h.read fun _ _ _ hs => by rw [hs.lookUp, liveEntity?_alike hs.world]
  | .computed e, he => by
      simp only [Execution.resolve]
      exact h.bind (h.eval e (he e (List.mem_singleton_self e))) fun v =>
        h.read fun _ _ _ hs => liveEntity?_alike hs.world v

theorem evalArgs (h : Constructive c S Q W) :
    (es : List Expr) → (∀ e ∈ es, S e) → Q fun i => evalArgs c i es
  | [], _ => by
      simp only [Execution.evalArgs]
      exact h.pure _
  | e :: es, hes => by
      rw [List.forall_mem_cons] at hes
      simp only [Execution.evalArgs]
      exact h.bind (h.eval e hes.1) fun v =>
        h.bind (h.evalArgs es hes.2) fun vs => h.pure _

theorem evalFields (h : Constructive c S Q W) :
    (fields : List (String × Expr)) → (∀ p ∈ fields, S p.2) → Q fun i => evalFields c i fields
  | [], _ => by
      simp only [Execution.evalFields]
      exact h.pure _
  | (name, e) :: rest, hfields => by
      rw [List.forall_mem_cons] at hfields
      simp only [Execution.evalFields]
      exact h.bind (h.eval e hfields.1) fun v =>
        h.bind (h.evalFields rest hfields.2) fun vs => h.pure _

theorem override (h : Constructive c S Q W) {e : EntityRef}
    {all : List (String × List (String × Expr))} (he : S (.clone e all)) (copy : EntityId) :
    (overrides : List (String × List (String × Expr))) → (∀ p ∈ overrides, ∀ q ∈ p.2, S q.2) →
      W copy fun i => override c i copy overrides
  | [], _ => by
      simp only [Execution.override]
      exact h.evaluated copy (h.pure _)
  | (component, fields) :: rest, hrest => by
      rw [List.forall_mem_cons] at hrest
      simp only [Execution.override]
      exact h.next (h.evaluated copy (h.evalFields fields hrest.1)) fun values =>
        h.next (h.writeFields he copy component values) fun _ => h.override he copy rest hrest.2

end

end Constructive

namespace Compositional

variable (h : Compositional c S Q)

include h

theorem eval (e : Expr) (he : S e) : Q fun i => eval c i e := h.constructive.eval e he

theorem resolve (e : EntityRef) (he : ∀ x ∈ e.parts, S x) : Q fun i => resolve c i e :=
  h.constructive.resolve e he

theorem evalFields (fields : List (String × Expr)) (hfields : ∀ p ∈ fields, S p.2) :
    Q fun i => evalFields c i fields := h.constructive.evalFields fields hfields

theorem override {e : EntityRef} {all : List (String × List (String × Expr))}
    (he : S (.clone e all)) (copy : EntityId) (overrides : List (String × List (String × Expr)))
    (hoverrides : ∀ p ∈ overrides, ∀ q ∈ p.2, S q.2) : Q fun i => override c i copy overrides :=
  h.constructive.override he copy overrides hoverrides

end Compositional

end Execution

end RuleSim
