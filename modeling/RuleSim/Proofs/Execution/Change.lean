import Mathlib.Logic.Relation
import RuleSim.Proofs.Execution.Closed

namespace RuleSim

inductive World.Edit (w : World) : World → Prop
  | create : Edit w w.create.2
  | delete {w' : World} (id : EntityId) (h : w.delete id = .ok w') : Edit w w'
  | addComponent {w' : World} (id : EntityId) (component : String) (init : List (String × Value))
      (h : w.addComponent id component init = .ok w') : Edit w w'
  | removeComponent {w' : World} (id : EntityId) (component : String) {found : Bool}
      (h : w.removeComponent id component = .ok (found, w')) : Edit w w'
  | setField {w' : World} (id : EntityId) (component field : String) (v : Value)
      (h : w.setField id component field v = .ok w') : Edit w w'
  | clone {w' : World} (source : EntityId) {copy : EntityId}
      (h : w.clone source none = .ok (copy, w')) : Edit w w'

namespace Execution

inductive Change (types : String → Prop) (s : Stage) : Stage → Prop
  | world {w : World} (h : World.Edit s.world w) : Change types s { s with world := w }
  | random (r : Random) : Change types s { s with random := r }
  | trace (e : TraceEvent) (h : e.kind ≠ "event_fired") :
      Change types s { s with trace := s.trace.record e }
  | schedule {type : String} (h : types type) (delay : Binary64) (payload : Payload) :
      Change types s { s with scheduler := (s.scheduler.schedule type delay payload).2 }
  | recur {type : String} (h : types type) (delay interval : Binary64) (payload : Payload)
      {id : Nat} {scheduler : Scheduler}
      (hs : s.scheduler.scheduleRecurringAfter type delay interval payload = .ok (id, scheduler)) :
      Change types s { s with scheduler }

abbrev Changes (types : String → Prop) : Stage → Stage → Prop :=
  Relation.ReflTransGen (Change types)

def Makes (types : String → Prop) {α : Type} (x : Exec α) : Prop :=
  ∀ s, Changes types s.toStage (final x s).toStage

variable {types : String → Prop} {α β : Type}

theorem changes_moving : Moving fun s t : State => Changes types s.toStage t.toStage where
  refl _ := .refl
  trans := .trans
  noted e _ h := .single (.trace e h.kind_ne)
  drawn _ random := .single (.random random)
  written h := .single (.world (.setField _ _ _ _ h))
  cloned h := .single (.world (.clone _ h))

theorem makes_onWorld {f : World → Except Error (α × World)}
    (hf : ∀ w a w', f w = .ok (a, w') → World.Edit w w') : Makes types (onWorld f) :=
  onWorld_relates (R := fun s t : State => Changes types s.toStage t.toStage) (fun _ => .refl)
    fun s a w' h => .single (.world (hf s.world a w' h))

theorem makes_changeWorld {f : World → Except Error World}
    (hf : ∀ w w', f w = .ok w' → World.Edit w w') : Makes types (changeWorld f) :=
  changeWorld_relates (R := fun s t : State => Changes types s.toStage t.toStage) (fun _ => .refl)
    fun s w' h => .single (.world (hf s.world w' h))

theorem makes_addEvent {type : String} (ht : types type) (delay : Binary64)
    (interval : Option Binary64) (payload : Payload) :
    Makes types (addEvent type delay interval payload) := by
  intro s
  unfold addEvent
  rw [final_get_bind]
  cases interval with
  | none => exact .single (.schedule ht delay payload)
  | some interval =>
      dsimp only
      split
      · next hs => exact .single (.recur ht delay interval payload hs)
      · exact .refl

theorem makes_record {e : TraceEvent} (h : e.kind ≠ "event_fired") : Makes types (record e) :=
  fun _ => .single (.trace e h)

theorem makes_closed : Closed types fun x => Makes types x where
  toEvaluable := changes_moving.evaluable
  setLocal _ _ _ := .refl
  create := by
    apply makes_onWorld
    intro w id w' h
    cases h
    exact .create
  delete id := makes_changeWorld fun _ _ h => .delete id h
  addComponent id component init :=
    makes_changeWorld fun _ _ h => .addComponent id component init h
  removeComponent id component := makes_onWorld fun _ _ _ h => .removeComponent id component h
  addEvent ht := makes_addEvent ht
  inFrame name frame _ hb s := by
    rw [final_inFrame]
    exact hb { s with frames := frame :: s.frames }
  keepingLocal name _ hb s := by
    rw [final_keepingLocal]
    exact hb s
  begin _ _ := .refl

variable {rule : Rule}

theorem attempt_changes (c : Scope) (id : EntityId) (s : State) (r : EventReport)
    (h : ∀ t ∈ eventTypesOf rule.decl.actions, types t) :
    Changes types s.toStage (attempt c rule id s r).1.toStage := by
  have htriggered : Makes types (record (.ruleTriggered c.rule id)) :=
    makes_record (by simp [TraceEvent.kind])
  have hrun := runRule_closed makes_closed c id htriggered h s
  rcases attempt_state c rule id s r with hs | ⟨message, hs⟩
  · rw [hs]
    exact hrun
  · rw [hs]
    exact hrun.tail (.trace _ (by simp [TraceEvent.kind]))

theorem runOn_changes (c : Scope) (ids : List EntityId) (s : State) (r : EventReport)
    (h : ∀ t ∈ eventTypesOf rule.decl.actions, types t) :
    Changes types s.toStage (runOn c rule ids s r).1.toStage := by
  induction ids generalizing s r with
  | nil => exact .refl
  | cons id ids ih =>
      unfold runOn
      split
      · have hmatched : Changes types s.toStage
            { s with trace := s.trace.record (.ruleMatched c.rule id) : State }.toStage :=
          .single (.trace _ (by simp [TraceEvent.kind]))
        exact (hmatched.trans (attempt_changes c id _ _ h)).trans (ih _ _)
      · exact ih s r

theorem runRules_changes (c : Scope) (rules : List Rule) (s : State) (r : EventReport)
    (h : ∀ rule ∈ rules, ∀ t ∈ eventTypesOf rule.decl.actions, types t) :
    Changes types s.toStage (runRules c rules s r).1.toStage := by
  induction rules generalizing c s r with
  | nil => exact .refl
  | cons rule rules ih =>
      unfold runRules
      exact (runOn_changes _ _ s r (h rule (by simp))).trans
        (ih _ _ _ fun rule hr => h rule (by simp [hr]))

theorem runEvent_changes (rules : RuleSet) (limits : ExecutionLimits) (event : Event)
    (stage : Stage)
    (h : ∀ rule ∈ rules.rulesFor event.type, ∀ t ∈ eventTypesOf rule.decl.actions, types t) :
    Changes types stage (runEvent rules limits event stage).1 :=
  runRules_changes _ _ { stage with } {} h

end Execution

end RuleSim
