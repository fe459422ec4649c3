import RuleSim.Proofs.Execution.Closed

namespace RuleSim

namespace Execution

variable {k : UInt64} {s t : State}

theorem respects_onWorld {α : Type} {f : World → Except Error (α × World)}
    (hf : ∀ w v, w.Alike k v → Match (fun p q => q.1 = p.1 ∧ p.2.Alike k q.2) (f w) (f v)) :
    Respects (State.Alike k) (onWorld f) := by
  intro s t h
  unfold onWorld
  have hw := hf _ _ h.world
  generalize f s.world = x, f t.world = y at hw
  cases hw with
  | ok hp =>
      obtain ⟨ha, hw⟩ := hp
      dsimp only
      rw [ha]
      exact .ok _ ⟨⟨hw, h.stage.scheduler, h.stage.random⟩, h.locals, h.frames⟩
  | error e => exact .error e h

theorem respects_changeWorld {f : World → Except Error World}
    (hf : ∀ w v, w.Alike k v → Match (World.Alike k) (f w) (f v)) :
    Respects (State.Alike k) (changeWorld f) := by
  refine respects_onWorld fun w v h => ?_
  have hw := hf w v h
  generalize f w = x, f v = y at hw
  cases hw with
  | ok hw => exact .ok ⟨rfl, hw⟩
  | error e => exact .error e

theorem respects_draw (f : Random → Except Error.Kind (Value × Random)) :
    Respects (State.Alike k) (draw f) := by
  intro s t h
  cases hs : f s.random with
  | ok p =>
      rw [draw_of_ok hs, draw_of_ok (h.stage.random ▸ hs)]
      exact .ok p.1 ⟨⟨h.world, h.stage.scheduler, rfl⟩, h.locals, h.frames⟩
  | error kind =>
      rw [draw_of_error hs, draw_of_error (h.stage.random ▸ hs)]
      exact .error _ h

theorem respects_addEvent (type : String) (delay : Binary64) (interval : Option Binary64)
    (payload : Payload) : Respects (State.Alike k) (addEvent type delay interval payload) := by
  intro s t h
  unfold addEvent
  rw [get_bind, get_bind, h.stage.scheduler]
  cases interval with
  | none => exact .ok _ ⟨⟨h.world, rfl, h.stage.random⟩, h.locals, h.frames⟩
  | some interval =>
      dsimp only
      cases s.scheduler.scheduleRecurringAfter type delay interval payload with
      | ok p => exact .ok _ ⟨⟨h.world, rfl, h.stage.random⟩, h.locals, h.frames⟩
      | error e => exact .error e h

theorem respects_inFrame (name : String) (frame : Fields Value) {body : Exec Value}
    (hb : Respects (State.Alike k) body) : Respects (State.Alike k) (inFrame name frame body) := by
  intro s t h
  have hbody := hb { s with frames := frame :: s.frames } { t with frames := frame :: t.frames }
    ⟨h.stage, h.locals, by rw [h.frames]⟩
  rw [inFrame_eq, inFrame_eq]
  generalize body { s with frames := frame :: s.frames } = x,
    body { t with frames := frame :: t.frames } = y at hbody
  cases hbody with
  | ok v h => exact .ok v ⟨h.stage, h.locals, by rw [h.frames]⟩
  | error e h => exact .error _ ⟨h.stage, h.locals, by rw [h.frames]⟩

theorem State.Alike.restoreLocal (h : s.Alike k t) (name : String) (saved : Option Value) :
    (restoreLocal name saved s).Alike k (restoreLocal name saved t) := by
  refine ⟨h.stage, ?_, h.frames⟩
  unfold Execution.restoreLocal
  dsimp only
  rw [h.locals]

theorem respects_keepingLocal (name : String) {body : Exec Unit}
    (hb : Respects (State.Alike k) body) :
    Respects (State.Alike k) (keepingLocal name body) := by
  intro s t h
  rw [keepingLocal_eq, keepingLocal_eq, h.locals]
  have hbody := hb s t h
  generalize body s = x, body t = y at hbody
  cases hbody with
  | ok _ h => exact .ok () (h.restoreLocal name _)
  | error e h => exact .error e (h.restoreLocal name _)

theorem respects_closed : Closed (fun _ => True) fun x => Respects (State.Alike k) x where
  pure := respects_pure
  fail _ := respects_throw _
  bind hx hf := hx.bind hf
  reading heq hf := respects_get_bind (heq k) hf
  setLocal _ _ := respects_modify fun _ _ h => ⟨h.stage, by rw [h.locals], h.frames⟩
  record _ _ := respects_modify fun _ _ h =>
    ⟨⟨h.world, h.stage.scheduler, h.stage.random⟩, h.locals, h.frames⟩
  draw := respects_draw
  create := respects_onWorld fun _ _ h => .ok h.create
  delete id := respects_changeWorld fun _ _ h => h.delete id
  addComponent id component init :=
    respects_changeWorld fun _ _ h => h.addComponent id component init
  removeComponent id component := respects_onWorld fun _ _ h => h.removeComponent id component
  setField id component field v := respects_changeWorld fun _ _ h => h.setField id component field v
  clone source := respects_onWorld fun _ _ h => h.clone source
  resolveBound id name := by
    refine respects_onWorld fun w v h => ?_
    rw [h.resolveBound]
    cases w.resolveBound id name with
    | ok f => exact .ok ⟨rfl, h⟩
    | error e => exact .error e
  addEvent _ := respects_addEvent _
  inFrame := respects_inFrame
  keepingLocal := respects_keepingLocal
  begin _ := respects_modify fun _ _ h => ⟨h.stage, rfl, rfl⟩

theorem passesFilter_alike {w v : World} (h : w.Alike k v) (id : EntityId) (filter : List String) :
    passesFilter v id filter = passesFilter w id filter := by
  unfold passesFilter
  simp only [h.hasEntity, h.hasComponent]

theorem boundCandidate?_alike {w v : World} (h : w.Alike k v) (c : Scope)
    (filter slots : List String) :
    boundCandidate? c v filter slots = boundCandidate? c w filter slots := by
  induction slots with
  | nil => rfl
  | cons slot slots ih =>
      unfold boundCandidate?
      simp only [passesFilter_alike h, ih]

theorem candidates_alike {w v : World} (h : w.Alike k v) (c : Scope) (rule : Rule) :
    candidates c v rule = candidates c w rule := by
  unfold candidates
  simp only [passesFilter_alike h, boundCandidate?_alike h, h.query]

structure Indistinct (R : State → State → Prop) : Prop where
  closed : Closed (fun _ => True) fun x => Respects R x
  alike {s t : State} (h : R s t) : ∃ k, s.Alike k t
  traced {s t : State} (h : R s t) (u v : TraceSink) : R { s with trace := u } { t with trace := v }

theorem indistinct_alike (k : UInt64) : Indistinct (State.Alike k) where
  closed := respects_closed
  alike h := ⟨k, h⟩
  traced h _ _ := ⟨⟨h.world, h.stage.scheduler, h.stage.random⟩, h.locals, h.frames⟩

def Told (R : State → State → Prop) (p q : State × EventReport) : Prop := R p.1 q.1 ∧ q.2 = p.2

section

variable {R : State → State → Prop} (hR : Indistinct R) (c : Scope) (r : EventReport)
include hR

theorem attempt_told (rule : Rule) (id : EntityId) (h : R s t) :
    Told R (attempt c rule id s r) (attempt c rule id t r) := by
  unfold attempt
  have hrun : Agree R (runRule c rule id s) (runRule c rule id t) :=
    runRule_closed hR.closed c id (respects_modify fun _ _ h => hR.traced h _ _)
      (fun _ _ => trivial) s t h
  generalize runRule c rule id s = x, runRule c rule id t = y at hrun
  cases hrun with
  | ok holds h => exact ⟨h, rfl⟩
  | error e h => exact ⟨hR.traced h _ _, rfl⟩

theorem runOn_told (rule : Rule) (ids : List EntityId) (h : R s t) :
    Told R (runOn c rule ids s r) (runOn c rule ids t r) := by
  induction ids generalizing s t r with
  | nil => exact ⟨h, rfl⟩
  | cons id ids ih =>
      obtain ⟨k, halike⟩ := hR.alike h
      unfold runOn
      rw [halike.world.hasEntity]
      split
      · obtain ⟨hstate, hreport⟩ := attempt_told hR c { r with matched := r.matched + 1 } rule id
          (hR.traced h (s.trace.record (.ruleMatched c.rule id))
            (t.trace.record (.ruleMatched c.rule id)))
        dsimp only
        rw [hreport]
        exact ih _ hstate
      · exact ih r h

theorem runRules_told (rules : List Rule) (h : R s t) :
    Told R (runRules c rules s r) (runRules c rules t r) := by
  induction rules generalizing c s t r with
  | nil => exact ⟨h, rfl⟩
  | cons rule rules ih =>
      obtain ⟨k, halike⟩ := hR.alike h
      unfold runRules
      dsimp only
      rw [candidates_alike halike.world]
      obtain ⟨hstate, hreport⟩ := runOn_told hR { c with rule := rule.name } r rule
        (candidates { c with rule := rule.name } s.world rule) h
      rw [hreport]
      exact ih _ _ hstate

end

/-- On like stages an event does the same and is reported the same. -/
theorem runEvent_alike {s t : Stage} (h : s.Alike k t) (rules : RuleSet) (limits : ExecutionLimits)
    (event : Event) : (runEvent rules limits event s).1.Alike k (runEvent rules limits event t).1 ∧
      (runEvent rules limits event t).2 = (runEvent rules limits event s).2 := by
  obtain ⟨hstate, hreport⟩ := runRules_told (indistinct_alike k) { rules, limits, event } {}
    (rules.rulesFor event.type) (s := { s with }) (t := { t with }) ⟨h, rfl, rfl⟩
  exact ⟨hstate.stage, hreport⟩

end Execution

end RuleSim
