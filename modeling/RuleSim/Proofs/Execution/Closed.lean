import RuleSim.Proofs.Execution.Evaluation

namespace RuleSim

def TraceEvent.IsEffect : TraceEvent → Prop
  | limitReached .. | entitySpawned .. | entityDespawned .. => True
  | eventFired .. | ruleMatched .. | ruleTriggered .. | ruleFailed .. | recoveryScheduled .. => False

theorem TraceEvent.IsEffect.kind_ne {e : TraceEvent} (h : e.IsEffect) : e.kind ≠ "event_fired" := by
  cases e with
  | eventFired => exact h.elim
  | _ => simp [kind]

namespace Execution

structure Evaluable (P : {α : Type} → Exec α → Prop) : Prop where
  pure {α : Type} (a : α) : P (pure a : Exec α)
  fail {α : Type} (kind : Error.Kind) : P (fail kind : Exec α)
  bind {α β : Type} {x : Exec α} {f : α → Exec β} (hx : P x) (hf : ∀ a, P (f a)) : P (x >>= f)
  reading {α : Type} {f : State → Exec α} (heq : ∀ k s t, s.Alike k t → f s = f t)
    (hf : ∀ s, P (f s)) : P (get >>= f)
  record (e : TraceEvent) (h : e.IsEffect) : P (record e)
  draw (f : Random → Except Error.Kind (Value × Random)) : P (draw f)
  setField (id : EntityId) (component field : String) (v : Value) :
    P (changeWorld (·.setField id component field v))
  clone (source : EntityId) : P (onWorld (·.clone source none))
  resolveBound (id : EntityId) (name : String) :
    P (onWorld fun w => (w.resolveBound id name).map (·, w))

structure Invocable (P : {α : Type} → Exec α → Prop) : Prop extends Evaluable P where
  inFrame (name : String) (frame : Fields Value) {body : Exec Value} (hb : P body) :
    P (inFrame name frame body)

/-- The property holds of the elementary executions and passes on to what actions and rules make of
them. Only events of the given types are queued. -/
structure Composed (types : String → Prop) (P : {α : Type} → Exec α → Prop) : Prop
    extends Evaluable P where
  setLocal (name : String) (v : Value) : P (setLocal name v)
  create : P (onWorld fun w => .ok w.create)
  delete (id : EntityId) : P (changeWorld (·.delete id))
  addComponent (id : EntityId) (component : String) (init : List (String × Value)) :
    P (changeWorld (·.addComponent id component init))
  removeComponent (id : EntityId) (component : String) :
    P (onWorld (·.removeComponent id component))
  addEvent {type : String} (h : types type) (delay : Binary64) (interval : Option Binary64)
    (payload : Payload) : P (addEvent type delay interval payload)
  keepingLocal (name : String) {body : Exec Unit} (hb : P body) : P (keepingLocal name body)
  begin (locals : Fields Value) : P (modify fun s => { s with locals, frames := [] })

structure Closed (types : String → Prop) (P : {α : Type} → Exec α → Prop) : Prop
    extends Composed types P, Invocable P

variable {types : String → Prop} {P : {α : Type} → Exec α → Prop}

theorem Evaluable.lift (hP : Evaluable P) {α : Type} (x : Except Error.Kind α) : P (lift x) := by
  cases x with
  | ok a => exact hP.pure a
  | error kind => exact hP.fail kind

structure Moving (R : State → State → Prop) : Prop where
  refl (s : State) : R s s
  trans {s t u : State} (h : R s t) (h' : R t u) : R s u
  noted (e : TraceEvent) (s : State) (h : e.IsEffect) : R s (noted e s)
  drawn (s : State) (random : Random) : R s { s with random }
  written {s : State} {id : EntityId} {component field : String} {v : Value} {w : World}
    (h : s.world.setField id component field v = .ok w) : R s { s with world := w }
  cloned {s : State} {source copy : EntityId} {w : World}
    (h : s.world.clone source none = .ok (copy, w)) : R s { s with world := w }

theorem Moving.evaluable {R : State → State → Prop} (hR : Moving R) :
    Evaluable fun x => ∀ s, R s (final x s) where
  pure _ := hR.refl
  fail _ := hR.refl
  bind hx hf := final_bind_trans (R := R) hR.trans hx hf
  reading _ hf s := hf s s
  record e h s := hR.noted e s h
  draw _ := draw_relates hR.refl fun s _ random _ => hR.drawn s random
  setField id component field v := changeWorld_relates hR.refl fun _ _ h => hR.written h
  clone _ := onWorld_relates hR.refl fun _ _ _ h => hR.cloned h
  resolveBound id name s := by
    rw [final_resolveBound]
    exact hR.refl s

theorem Evaluable.read (hP : Evaluable P) {α : Type} {f : State → α}
    (heq : ∀ k s t, State.Alike k s t → f t = f s) : P (do return f (← get) : Exec α) :=
  hP.reading (fun k s t h => by rw [heq k s t h]) fun _ => hP.pure _

def Invoke.Satisfies (invoke : Invoke) (P : {α : Type} → Exec α → Prop) : Prop :=
  ∀ name params body args, P (invoke name params body args)

theorem Evaluable.compositional (hP : Evaluable P) (c : Scope) {invoke : Invoke}
    (hi : invoke.Satisfies P) : Compositional c (fun _ => True) fun p => P (p invoke) where
  parts _ _ := trivial
  pure := hP.pure
  fail := hP.fail
  bind := hP.bind
  read heq := hP.read fun k s t h => heq k s t h.near
  builtin _ _ _ _ := hP.draw _
  call _ _ _ _ _ := hi _ _ _ _
  clone _ := hP.clone
  spawned _ _ := hP.record _ trivial
  setField _ := hP.setField
  boundCall _ id _ hx :=
    hP.bind (hP.resolveBound id _) fun _ => hP.bind hx fun _ => hi _ _ _ _

theorem eval_closed (hP : Evaluable P) (c : Scope) {invoke : Invoke} (hi : invoke.Satisfies P)
    (e : Expr) : P (eval c invoke e) := (hP.compositional c hi).eval e trivial

theorem enter_closed (hP : Invocable P) (c : Scope) (name : String) (params : List Param)
    (args : List Value) {body : Exec Value} (hb : P body) :
    P (enter c name params args body) := by
  unfold enter
  split
  · exact hP.fail _
  · refine hP.reading (fun k s t h => by rw [h.frames]) fun s => ?_
    split
    · exact hP.fail _
    · exact hP.inFrame _ _ hb

theorem invokeAt_closed (hP : Invocable P) (c : Scope) (depth : Nat) :
    (invokeAt c depth).Satisfies P := by
  induction depth with
  | zero => exact fun name params body args => enter_closed hP c name params args (hP.fail _)
  | succ depth ih =>
      exact fun name params body args =>
        enter_closed hP c name params args (eval_closed hP.toEvaluable c ih body)

mutual

def eventTypes : Action → List String
  | .schedule spec _ _ => [spec.event]
  | .emit spec => [spec.event]
  | .branch _ whenTrue whenFalse => eventTypesOf whenTrue ++ eventTypesOfOptional whenFalse
  | .each _ _ body => eventTypesOf body
  | .repeatWhile _ body => eventTypesOf body
  | .modify .. | .spawn .. | .despawn .. | .addComponent .. | .removeComponent .. | .bind .. => []

def eventTypesOf : List Action → List String
  | [] => []
  | a :: as => eventTypes a ++ eventTypesOf as

def eventTypesOfOptional : Option (List Action) → List String
  | none => []
  | some actions => eventTypesOf actions

end

theorem addComponents_closed (hP : Composed types P) (id : EntityId)
    (inits : List (String × Fields Value)) : P (addComponents id inits) := by
  induction inits with
  | nil => exact hP.pure _
  | cons p rest ih => exact hP.bind (hP.addComponent id p.1 p.2) fun _ => ih

theorem repeatWhile_closed (hP : Composed types P) {condition : Exec Bool} {body stopped : Exec Unit}
    (hc : P condition) (hb : P body) (hs : P stopped) (n : Nat) :
    P (repeatWhile condition body stopped n) := by
  induction n with
  | zero =>
      refine hP.bind hc fun holds => ?_
      split
      · exact hs
      · exact hP.pure _
  | succ n ih =>
      refine hP.bind hc fun holds => ?_
      split
      · exact hP.bind hb fun _ => ih
      · exact hP.pure _

theorem forValues_closed (hP : Composed types P) (name : String) {body : Exec Unit} (hb : P body)
    (values : List Value) : P (forValues name body values) := by
  induction values with
  | nil => exact hP.pure _
  | cons v vs ih => exact hP.bind (hP.setLocal name v) fun _ => hP.bind hb fun _ => ih

structure Evaluates (c : Scope) (P : {α : Type} → Exec α → Prop) : Prop where
  expr (e : Expr) : P (evaluate c e)
  ref (e : EntityRef) : P (evaluateRef c e)
  fields (fields : Fields Expr) : P (evaluateFields c fields)

theorem Compositional.evaluates {c : Scope} (h : Compositional c (fun _ => True)
    fun p => P (p (invokeAt c c.limits.callDepth))) : Evaluates c P where
  expr e := h.eval e trivial
  ref e := h.resolve e fun _ _ => trivial
  fields fields := h.evalFields fields fun _ _ => trivial

theorem Invocable.evaluates (hP : Invocable P) (c : Scope) : Evaluates c P :=
  (hP.compositional c (invokeAt_closed hP c _)).evaluates

section Calls

variable (hP : Composed types P) {c : Scope} (hv : Evaluates c P)

include hP hv

theorem evaluateNumber_closed (what : String) (e : Expr) :
    P (evaluateNumber c what e) := by
  refine hP.bind (hv.expr e) fun v => ?_
  split
  · exact hP.pure _
  · split
    · exact hP.pure _
    · exact hP.fail _

theorem modifyField_closed (e : EntityRef)
    (component field : String) (op : ModifyOp) (value : Expr) :
    P (modifyField c e component field op value) := by
  refine hP.bind (hv.ref e) fun id => ?_
  cases id with
  | none => exact hP.pure _
  | some id =>
      refine hP.bind (hv.expr value) fun operand => ?_
      split
      · exact hP.pure _
      · cases op.operator? with
        | none => exact hP.bind (hP.pure _) fun v => hP.setField id component field v
        | some op =>
            refine hP.reading (fun k s t h => ?_) fun s =>
              hP.bind (hP.lift _) fun v => hP.setField id component field v
            rw [currentValue_alike h.world]

theorem evaluateSlot_closed (e : Option Expr) :
    P (evaluateSlot c e) := by
  cases e with
  | none => exact hP.pure _
  | some e =>
      refine hP.bind (hv.expr e) fun v => hP.reading (fun k s t h => ?_) fun s => ?_
      · rw [liveEntity?_alike h.world]
      · split <;> exact hP.pure _

theorem optionalNumber_closed (what : String)
    (e : Option Expr) : P (optionalNumber c what e) := by
  cases e with
  | none => exact hP.pure _
  | some e => exact evaluateNumber_closed hP hv what e

theorem scheduleEvent_closed (spec : EventSpec)
    (ht : types spec.event) (delay interval : Option Expr) :
    P (scheduleEvent c spec delay interval) := by
  refine hP.bind (evaluateSlot_closed hP hv spec.source) fun source => ?_
  split
  · exact hP.pure _
  · refine hP.bind (evaluateSlot_closed hP hv spec.target) fun target => ?_
    split
    · exact hP.pure _
    · exact hP.bind (hv.fields spec.fields) fun fields =>
        hP.bind (optionalNumber_closed hP hv _ delay) fun delay =>
          hP.bind (optionalNumber_closed hP hv _ interval) fun interval => hP.addEvent ht _ _ _

theorem evaluateInits_closed (inits : List ComponentInit) :
    P (evaluateInits c inits) := by
  induction inits with
  | nil => exact hP.pure _
  | cons init rest ih =>
      exact hP.bind (hv.fields init.fields) fun fields =>
        hP.bind ih fun _ => hP.pure _

theorem spawnEntity_closed (components : List ComponentInit) :
    P (spawnEntity c components) := by
  refine hP.bind (evaluateInits_closed hP hv components) fun inits => ?_
  refine hP.bind hP.create fun id => hP.bind (addComponents_closed hP id inits) fun _ => ?_
  exact hP.record _ trivial

theorem forEach_closed (name : String) (items : Expr)
    {body : Exec Unit} (hb : P body) : P (forEach c name items body) := by
  refine hP.bind (hv.expr items) fun v => ?_
  split
  · exact hP.pure _
  · next values =>
      have hrun : P (keepingLocal name (forValues name body
          (values.take c.limits.loopIterations))) :=
        hP.keepingLocal name (forValues_closed hP name hb _)
      dsimp only
      split
      · exact hP.bind (hP.record _ trivial) fun _ => hrun
      · exact hrun
  · exact hP.fail _

end Calls

mutual

theorem runAction_closed (hP : Composed types P) {c : Scope} (hv : Evaluates c P) :
    (a : Action) → (∀ t ∈ eventTypes a, types t) → P (runAction c a)
  | .modify e component field op value, _ => by
      rw [runAction]
      exact modifyField_closed hP hv e component field op value
  | .schedule spec delay interval, h => by
      rw [runAction]
      exact scheduleEvent_closed hP hv spec (h _ (by simp [eventTypes])) delay interval
  | .emit spec, h => by
      rw [runAction]
      exact scheduleEvent_closed hP hv spec (h _ (by simp [eventTypes])) none none
  | .spawn components, _ => by
      rw [runAction]
      exact spawnEntity_closed hP hv components
  | .despawn e, _ => by
      rw [runAction]
      refine hP.bind (hv.ref e) fun id => ?_
      cases id with
      | none => exact hP.pure _
      | some id =>
          exact hP.bind (hP.delete id) fun _ => hP.record _ trivial
  | .addComponent e component, _ => by
      rw [runAction]
      refine hP.bind (hv.ref e) fun id => ?_
      cases id with
      | none => exact hP.pure _
      | some id =>
          exact hP.bind (hv.fields component.fields) fun fields =>
            hP.addComponent id component.name fields
  | .removeComponent e component, _ => by
      rw [runAction]
      refine hP.bind (hv.ref e) fun id => ?_
      cases id with
      | none => exact hP.pure _
      | some id => exact hP.bind (hP.removeComponent id component) fun _ => hP.pure _
  | .branch condition whenTrue whenFalse, h => by
      rw [runAction]
      rw [eventTypes] at h
      refine hP.bind (hv.expr condition) fun v => ?_
      split
      · exact runActions_closed hP hv whenTrue fun t ht => h t (List.mem_append_left _ ht)
      · exact runOptional_closed hP hv whenFalse fun t ht => h t (List.mem_append_right _ ht)
  | .each name items body, h => by
      rw [runAction]
      rw [eventTypes] at h
      exact forEach_closed hP hv name items (runActions_closed hP hv body h)
  | .bind name value, _ => by
      rw [runAction]
      exact hP.bind (hv.expr value) fun v => hP.setLocal name v
  | .repeatWhile condition body, h => by
      rw [runAction]
      rw [eventTypes] at h
      refine repeatWhile_closed hP ?_ (runActions_closed hP hv body h) ?_ _
      · exact hP.bind (hv.expr condition) fun v => hP.pure _
      · exact hP.record _ trivial

theorem runActions_closed (hP : Composed types P) {c : Scope} (hv : Evaluates c P) :
    (actions : List Action) → (∀ t ∈ eventTypesOf actions, types t) → P (runActions c actions)
  | [], _ => by
      rw [runActions]
      exact hP.pure _
  | a :: as, h => by
      rw [runActions]
      rw [eventTypesOf] at h
      exact hP.bind (runAction_closed hP hv a fun t ht => h t (List.mem_append_left _ ht)) fun _ =>
        runActions_closed hP hv as fun t ht => h t (List.mem_append_right _ ht)

theorem runOptional_closed (hP : Composed types P) {c : Scope} (hv : Evaluates c P) :
    (actions : Option (List Action)) → (∀ t ∈ eventTypesOfOptional actions, types t) →
      P (runOptional c actions)
  | none, _ => by
      rw [runOptional]
      exact hP.pure _
  | some actions, h => by
      rw [runOptional]
      rw [eventTypesOfOptional] at h
      exact runActions_closed hP hv actions h

end

theorem runRule_composed (hP : Composed types P) {c : Scope} (hv : Evaluates c P) {rule : Rule}
    (id : EntityId)
    (htriggered : P (record (.ruleTriggered c.rule id)))
    (h : ∀ t ∈ eventTypesOf rule.decl.actions, types t) : P (runRule c rule id) := by
  have hrest (holds : Bool) : P (do
      if holds then
        record (.ruleTriggered c.rule id)
        runActions c rule.decl.actions
      return holds : Exec Bool) := by
    split
    · exact hP.bind htriggered fun _ =>
        hP.bind (runActions_closed hP hv _ h) fun _ => hP.pure _
    · exact hP.bind (hP.pure _) fun _ => hP.pure _
  unfold runRule
  refine hP.bind (hP.begin _) fun _ => ?_
  cases rule.decl.condition with
  | none => exact hP.bind (hP.pure _) fun holds => hrest holds
  | some condition =>
      exact hP.bind (hv.expr condition) fun v =>
        hP.bind (hP.pure _) fun holds => hrest holds

theorem runRule_closed (hP : Closed types P) (c : Scope) {rule : Rule} (id : EntityId)
    (htriggered : P (record (.ruleTriggered c.rule id)))
    (h : ∀ t ∈ eventTypesOf rule.decl.actions, types t) : P (runRule c rule id) :=
  runRule_composed hP.toComposed (hP.toInvocable.evaluates c) id htriggered h

end Execution

end RuleSim
