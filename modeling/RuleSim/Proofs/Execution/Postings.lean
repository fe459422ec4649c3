import RuleSim.Proofs.Execution.Termination
import RuleSim.Proofs.Execution.Turns
import RuleSim.Proofs.Scheduler.Additions

namespace RuleSim

namespace Execution

variable {α β : Type} {c : Scope} {s : State}

abbrev Silent (x : Exec α) : Prop := Makes (fun _ => False) x

theorem Changes.scheduler {s t : Stage} (h : Changes (fun _ => False) s t) :
    t.scheduler = s.scheduler := by
  induction h with
  | refl => rfl
  | tail _ hstep ih =>
      cases hstep with
      | schedule h | recur h => exact h.elim
      | _ => exact ih

theorem Silent.scheduler {x : Exec α} (hx : Silent x) (s : State) :
    (final x s).scheduler = s.scheduler := Changes.scheduler (hx s)

theorem silent_closed : Closed (fun _ => False) fun x => Silent x := makes_closed

theorem silent_evaluates (c : Scope) : Evaluates c fun x => Silent x :=
  silent_closed.toInvocable.evaluates c

theorem silent_evaluate (c : Scope) (e : Expr) : Silent (evaluate c e) :=
  (silent_evaluates c).expr e

theorem silent_slot (c : Scope) (e : Option Expr) : Silent (evaluateSlot c e) :=
  evaluateSlot_closed silent_closed.toComposed (silent_evaluates c) e

theorem silent_number (c : Scope) (what : String) (e : Option Expr) :
    Silent (optionalNumber c what e) :=
  optionalNumber_closed silent_closed.toComposed (silent_evaluates c) what e

def Unmet (c : Scope) (e : Option Expr) (s : State) : Prop :=
  ∃ x v t, e = some x ∧ evaluate c x s = .ok v t ∧ liveEntity? t.world v = none

theorem unmet_iff {e : Option Expr} :
    Unmet c e s ↔ ∃ t, evaluateSlot c e s = .ok .unresolved t := by
  constructor
  · rintro ⟨x, v, t, rfl, hv, hdead⟩
    refine ⟨t, (bind_of_ok hv _).trans ?_⟩
    rw [get_bind, hdead]
    rfl
  · rintro ⟨t, h⟩
    cases e with
    | none => cases h
    | some x =>
        obtain ⟨v, u, hv, h⟩ := bind_ok h
        rw [get_bind] at h
        cases hdead : liveEntity? u.world v with
        | some id =>
            rw [hdead] at h
            cases h
        | none =>
            rw [hdead] at h
            cases h
            exact ⟨x, v, t, rfl, hv, hdead⟩

structure Posted (type : String) (unmet : Prop) (s : State) (r : EStateM.Result Error State Unit)
    (events : List Event) : Prop where
  appends : s.scheduler.Appends events (stateOf r).scheduler
  nothing : (∃ e t, r = .error e t) ∨ unmet → events = []
  one : ¬ (∃ e t, r = .error e t) → ¬ unmet → ∃ event, events = [event] ∧ event.type = type

section Posted

variable {type : String} {unmet : Prop} {events : List Event}

theorem Posted.congr {r : EStateM.Result Error State Unit} (h : Posted type unmet s r events)
    {unmet' : Prop} (hiff : unmet' ↔ unmet) : Posted type unmet' s r events where
  appends := h.appends
  nothing hr := h.nothing (hr.imp_right hiff.mp)
  one hok hmet := h.one hok (mt hiff.mpr hmet)

theorem posted_error {e : Error} {t : State} (ht : t.scheduler = s.scheduler) :
    Posted type unmet s (.error e t) [] where
  appends := ht ▸ .refl t.scheduler
  nothing _ := rfl
  one hok := absurd ⟨e, t, rfl⟩ hok

theorem posted_unmet (hmet : unmet) : Posted type unmet s (.ok () s) [] where
  appends := .refl s.scheduler
  nothing _ := rfl
  one _ hnot := absurd hmet hnot

theorem posted_bind {x : Exec α} {f : α → Exec Unit} {unmet : α → State → Prop}
    (hx : Silent x) (hf : ∀ a t, ∃ events, Posted type (unmet a t) t (f a t) events) :
    ∃ events, Posted type (∃ a t, x s = .ok a t ∧ unmet a t) s ((x >>= f) s) events := by
  have hqueue := hx.scheduler s
  cases hr : x s with
  | error e t =>
      rw [final_of_error hr] at hqueue
      rw [bind_of_error hr]
      exact ⟨[], posted_error hqueue⟩
  | ok a t =>
      rw [final_of_ok hr] at hqueue
      rw [bind_of_ok hr]
      obtain ⟨events, h⟩ := hf a t
      refine ⟨events, hqueue ▸ h.appends, fun hfail => h.nothing (hfail.imp_right ?_), ?_⟩
      · rintro ⟨b, u, hb, hunmet⟩
        cases hb
        exact hunmet
      · exact fun hok hmet => h.one hok fun hunmet => hmet ⟨a, t, rfl, hunmet⟩

theorem posted_one {event : Event} {t : State}
    (h : s.scheduler.Appends [event] t.scheduler) :
    Posted event.type False s (.ok () t) [event] where
  appends := h
  nothing hr := by
    rcases hr with ⟨e, u, hr⟩ | hunmet
    · cases hr
    · exact hunmet.elim
  one _ _ := ⟨event, rfl, rfl⟩

theorem posted_addEvent (delay : Binary64) (interval : Option Binary64) (payload : Payload) :
    ∃ events, Posted type False s (addEvent type delay interval payload s) events := by
  rw [addEvent, get_bind]
  have hadd (interval : Option Binary64) := s.scheduler.appends_add type payload interval
    (.after delay)
  cases interval with
  | none => exact ⟨_, posted_one (t := { s with scheduler := _ }) (hadd none)⟩
  | some interval =>
      rcases s.scheduler.scheduleRecurringAfter_cases type delay interval payload with
        ⟨-, h⟩ | ⟨-, e, h⟩
      · simp only [h]
        exact ⟨_, posted_one (t := { s with scheduler := _ }) (hadd (some interval))⟩
      · simp only [h]
        exact ⟨[], posted_error rfl⟩

end Posted

def queueEvent (c : Scope) (spec : EventSpec) (delay interval : Option Expr)
    (source target : Option EntityId) : Exec Unit := do
  let fields ← evaluateFields c spec.fields
  let delay ← optionalNumber c "delay" delay
  let interval ← optionalNumber c "interval" interval
  addEvent spec.event (delay.getD Binary64.zero) interval { source, target, fields }

theorem queueEvent_posted (c : Scope) (spec : EventSpec) (delay interval : Option Expr)
    (source target : Option EntityId) (s : State) : ∃ events, Posted spec.event False s
      (queueEvent c spec delay interval source target s) events := by
  have hfields : Silent (evaluateFields c spec.fields) :=
    (silent_evaluates c).fields spec.fields
  obtain ⟨events, h⟩ := posted_bind (s := s) hfields fun fields t =>
    posted_bind (s := t) (silent_number c "delay" delay) fun delay u =>
      posted_bind (s := u) (silent_number c "interval" interval) fun interval v =>
        posted_addEvent (s := v) (delay.getD Binary64.zero) interval
          { source := source, target := target, fields := fields }
  exact ⟨events, h.congr (by simp)⟩

def withSlot (c : Scope) (e : Option Expr) (k : Option EntityId → Exec Unit) : Exec Unit := do
  match ← evaluateSlot c e with
  | .unresolved => return
  | slot => k slot.id?

theorem scheduleEvent_eq (c : Scope) (spec : EventSpec) (delay interval : Option Expr) :
    scheduleEvent c spec delay interval = withSlot c spec.source fun source =>
      withSlot c spec.target fun target => queueEvent c spec delay interval source target := by
  rw [scheduleEvent, withSlot]
  congr 1

theorem withSlot_posted {type : String} {e : Option Expr} {k : Option EntityId → Exec Unit}
    {unmet : State → Prop}
    (hk : ∀ id t, ∃ events, Posted type (unmet t) t (k id t) events) (s : State) :
    ∃ events, Posted type (Unmet c e s ∨ ∃ slot t, evaluateSlot c e s = .ok slot t ∧ unmet t) s
      (withSlot c e k s) events := by
  have hslot (slot : Slot) (t : State) :
      ∃ events, Posted type (slot = .unresolved ∨ unmet t) t
        ((match slot with
          | .unresolved => return
          | slot => k slot.id? : Exec Unit) t) events := by
    cases slot with
    | unresolved => exact ⟨[], posted_unmet (.inl rfl)⟩
    | absent =>
        obtain ⟨events, h⟩ := hk none t
        exact ⟨events, h.congr (by simp)⟩
    | entity id =>
        obtain ⟨events, h⟩ := hk (some id) t
        exact ⟨events, h.congr (by simp)⟩
  obtain ⟨events, h⟩ := posted_bind (s := s) (silent_slot c e) hslot
  refine ⟨events, h.congr ?_⟩
  rw [unmet_iff]
  constructor
  · rintro (⟨t, ht⟩ | ⟨slot, t, ht, hunmet⟩)
    · exact ⟨.unresolved, t, ht, .inl rfl⟩
    · exact ⟨slot, t, ht, .inr hunmet⟩
  · rintro ⟨slot, t, ht, rfl | hunmet⟩
    · exact .inl ⟨t, ht⟩
    · exact .inr ⟨slot, t, ht, hunmet⟩

/-- An action that is to queue an event, and the state in which it runs. -/
structure Posting where
  scope : Scope
  spec : EventSpec
  delay : Option Expr
  interval : Option Expr
  start : State

def Posting.result (p : Posting) : EStateM.Result Error State Unit :=
  scheduleEvent p.scope p.spec p.delay p.interval p.start

def Posting.Unmet (p : Posting) : Prop :=
  Execution.Unmet p.scope p.spec.source p.start ∨
    ∃ slot t, evaluateSlot p.scope p.spec.source p.start = .ok slot t ∧
      Execution.Unmet p.scope p.spec.target t

def Posting.Adds (p : Posting) (events : List Event) : Prop :=
  Posted p.spec.event p.Unmet p.start p.result events

theorem Posting.exists_adds (p : Posting) : ∃ events, p.Adds events := by
  obtain ⟨c, spec, delay, interval, s⟩ := p
  obtain ⟨events, h⟩ := withSlot_posted (fun source t =>
    withSlot_posted (fun target u => queueEvent_posted c spec delay interval source target u) t) s
  rw [← scheduleEvent_eq] at h
  exact ⟨events, h.congr (by simp [Posting.Unmet])⟩

def andThen (x : Exec α) (log : α → State → List Posting) (s : State) : List Posting :=
  match x s with
  | .ok a t => log a t
  | .error _ _ => []

theorem andThen_of_ok {x : Exec α} {a : α} {t : State} (h : x s = .ok a t)
    (log : α → State → List Posting) : andThen x log s = log a t := by
  rw [andThen, h]

theorem andThen_of_error {x : Exec α} {e : Error} {t : State} (h : x s = .error e t)
    (log : α → State → List Posting) : andThen x log s = [] := by
  rw [andThen, h]

def visitPostings (name : String) (body : Exec Unit) (log : State → List Posting) :
    List Value → State → List Posting
  | [], _ => []
  | v :: vs, s =>
    log (given name v s) ++ andThen body (fun _ => visitPostings name body log vs) (given name v s)

def whilePostings (condition : Exec Bool) (body : Exec Unit) (log : State → List Posting) :
    (n : Nat) → State → List Posting
  | 0, _ => []
  | n + 1, s => andThen condition (fun holds t =>
      if holds then log t ++ andThen body (fun _ => whilePostings condition body log n) t
      else []) s

def eachPostings (c : Scope) (name : String) (items : Expr) (body : Exec Unit)
    (log : State → List Posting) : State → List Posting :=
  andThen (evaluate c items) fun v t =>
    match v with
    | .list values =>
      visitPostings name body log (values.take c.limits.loopIterations) (visiting c values t)
    | _ => []

mutual

def postings (c : Scope) : Action → State → List Posting
  | .schedule spec delay interval, s => [⟨c, spec, delay, interval, s⟩]
  | .emit spec, s => [⟨c, spec, none, none, s⟩]
  | .branch condition whenTrue whenFalse, s =>
    andThen (evaluate c condition) (fun v t =>
      if v.truthy then postingsOf c whenTrue t else postingsOfOptional c whenFalse t) s
  | .each name items body, s =>
    eachPostings c name items (runActions c body) (postingsOf c body) s
  | .repeatWhile condition body, s =>
    whilePostings (do return (← evaluate c condition).truthy) (runActions c body)
      (postingsOf c body) c.limits.whileIterations s
  | .modify .., _ | .spawn .., _ | .despawn .., _ | .addComponent .., _ | .removeComponent .., _
  | .bind .., _ => []

def postingsOf (c : Scope) : List Action → State → List Posting
  | [], _ => []
  | a :: as, s => postings c a s ++ andThen (runAction c a) (fun _ => postingsOf c as) s

def postingsOfOptional (c : Scope) : Option (List Action) → State → List Posting
  | none, _ => []
  | some actions, s => postingsOf c actions s

end

/-- The second queue is the first one and what the postings add, in their order. -/
def Adding (q : Scheduler) (ps : List Posting) (q' : Scheduler) : Prop :=
  ∃ groups, List.Forall₂ Posting.Adds ps groups ∧ q.Appends groups.flatten q'

theorem Adding.refl (q : Scheduler) : Adding q [] q := ⟨[], .nil, .refl q⟩

theorem Adding.trans {q q' q'' : Scheduler} {ps ps' : List Posting} (h : Adding q ps q')
    (h' : Adding q' ps' q'') : Adding q (ps ++ ps') q'' := by
  obtain ⟨groups, hgroups, happends⟩ := h
  obtain ⟨groups', hgroups', happends'⟩ := h'
  refine ⟨groups ++ groups', List.rel_append hgroups hgroups', ?_⟩
  rw [List.flatten_append]
  exact happends.trans happends'

def Logs (x : Exec α) (log : State → List Posting) : Prop :=
  ∀ s, Adding s.scheduler (log s) (final x s).scheduler

theorem Silent.logs {x : Exec α} (hx : Silent x) : Logs x fun _ => [] := by
  intro s
  rw [hx.scheduler s]
  exact .refl s.scheduler

theorem Logs.bind {x : Exec α} {f : α → Exec β} {log : State → List Posting}
    {log' : α → State → List Posting} (hx : Logs x log) (hf : ∀ a, Logs (f a) (log' a)) :
    Logs (x >>= f) fun s => log s ++ andThen x log' s := by
  intro s
  have h := hx s
  dsimp only
  rw [final_bind]
  cases hr : x s with
  | ok a t =>
      rw [final_of_ok hr] at h
      rw [andThen_of_ok hr]
      exact h.trans (hf a t)
  | error e t =>
      rw [final_of_error hr] at h
      rw [andThen_of_error hr]
      exact h.trans (.refl t.scheduler)

theorem Logs.bind_pure {x : Exec α} {log : State → List Posting} (hx : Logs x log) (f : α → β) :
    Logs (x >>= fun a => pure (f a)) log := by
  intro s
  rw [final_bind_pure]
  exact hx s

/-- A first part that leaves the queue alone posts nothing. -/
theorem Silent.andThen_logs {x : Exec α} {f : α → Exec β} {log : α → State → List Posting}
    (hx : Silent x) (hf : ∀ a, Logs (f a) (log a)) : Logs (x >>= f) (andThen x log) :=
  hx.logs.bind hf

theorem scheduleEvent_logs (c : Scope) (spec : EventSpec) (delay interval : Option Expr) :
    Logs (scheduleEvent c spec delay interval) fun s => [⟨c, spec, delay, interval, s⟩] := by
  intro s
  obtain ⟨events, h⟩ := (Posting.mk c spec delay interval s).exists_adds
  refine ⟨[events], .cons h .nil, ?_⟩
  rw [List.flatten_singleton, final_eq]
  exact h.appends

theorem forValues_logs (name : String) {body : Exec Unit} {log : State → List Posting}
    (hb : Logs body log) (values : List Value) :
    Logs (forValues name body values) (visitPostings name body log values) := by
  induction values with
  | nil => exact (silent_closed.pure ()).logs
  | cons v vs ih =>
      exact (silent_closed.setLocal name v).andThen_logs fun _ => hb.bind fun _ => ih

theorem Logs.keepingLocal {body : Exec Unit} {log : State → List Posting} (hb : Logs body log)
    (name : String) : Logs (keepingLocal name body) log := by
  intro s
  rw [final_keepingLocal]
  exact hb s

theorem forEach_logs (name : String) (items : Expr) {body : Exec Unit}
    {log : State → List Posting} (hb : Logs body log) :
    Logs (forEach c name items body) (eachPostings c name items body log) := by
  apply (silent_evaluate c items).andThen_logs
  intro v
  cases v with
  | null => exact (silent_closed.pure ()).logs
  | list values =>
      have hvisit := (forValues_logs name hb (values.take c.limits.loopIterations)).keepingLocal name
      by_cases hlong : c.limits.loopIterations < values.length
      · simp only [visiting, if_pos hlong]
        refine Silent.andThen_logs ?_ fun _ => hvisit
        exact silent_closed.record _ trivial
      · simp only [visiting, if_neg hlong]
        exact hvisit
  | _ => exact (silent_closed.fail _).logs

theorem repeatWhile_logs {condition : Exec Bool} {body stopped : Exec Unit}
    {log : State → List Posting} (hc : Silent condition) (hb : Logs body log)
    (hs : Silent stopped) (n : Nat) :
    Logs (repeatWhile condition body stopped n) (whilePostings condition body log n) := by
  induction n with
  | zero =>
      apply Silent.logs
      apply silent_closed.bind hc
      intro holds
      cases holds with
      | true => exact hs
      | false => exact silent_closed.pure ()
  | succ n ih =>
      apply hc.andThen_logs
      intro holds
      cases holds with
      | true => exact hb.bind fun _ => ih
      | false => exact (silent_closed.pure ()).logs

/-- An action that names no event leaves the queue alone. -/
theorem runAction_silent (c : Scope) {a : Action} (h : eventTypes a = []) :
    Silent (runAction c a) :=
  runAction_closed silent_closed.toComposed (silent_evaluates c) a
    (h ▸ fun _ ht => absurd ht List.not_mem_nil)

mutual

theorem runAction_logs (c : Scope) : (a : Action) → Logs (runAction c a) (postings c a)
  | .schedule spec delay interval => by
      rw [runAction]
      exact scheduleEvent_logs c spec delay interval
  | .emit spec => by
      rw [runAction]
      exact scheduleEvent_logs c spec none none
  | .branch condition whenTrue whenFalse => by
      rw [runAction]
      apply (silent_evaluate c condition).andThen_logs
      intro v
      by_cases hv : v.truthy
      · simp only [hv, if_true]
        exact runActions_logs c whenTrue
      · simp only [hv]
        exact runOptional_logs c whenFalse
  | .each name items body => by
      rw [runAction]
      exact forEach_logs name items (runActions_logs c body)
  | .repeatWhile condition body => by
      rw [runAction]
      have hcondition : Silent (do return (← evaluate c condition).truthy) :=
        silent_closed.bind (silent_evaluate c condition) fun v => silent_closed.pure _
      apply repeatWhile_logs hcondition (runActions_logs c body)
      exact silent_closed.record _ trivial
  | .modify .. | .spawn .. | .despawn .. | .addComponent .. | .removeComponent .. | .bind .. =>
      (runAction_silent c rfl).logs

theorem runActions_logs (c : Scope) :
    (actions : List Action) → Logs (runActions c actions) (postingsOf c actions)
  | [] => by
      rw [runActions]
      exact (silent_closed.pure ()).logs
  | a :: as => by
      rw [runActions]
      exact (runAction_logs c a).bind fun _ => runActions_logs c as

theorem runOptional_logs (c : Scope) :
    (actions : Option (List Action)) → Logs (runOptional c actions) (postingsOfOptional c actions)
  | none => by
      rw [runOptional]
      exact (silent_closed.pure ()).logs
  | some actions => by
      rw [runOptional]
      exact runActions_logs c actions

end

def conditionOf (c : Scope) (rule : Rule) : Exec Bool :=
  match rule.decl.condition with
  | none => pure true
  | some condition => do pure (← evaluate c condition).truthy

theorem conditionOf_closed {types : String → Prop} {P : {α : Type} → Exec α → Prop}
    (hP : Composed types P) (hv : Evaluates c P) (rule : Rule) :
    P (conditionOf c rule) := by
  rw [conditionOf]
  cases rule.decl.condition with
  | none => exact hP.pure true
  | some condition => exact hP.bind (hv.expr condition) fun _ => hP.pure _

def rulePostings (c : Scope) (rule : Rule) (id : EntityId) (s : State) : List Posting :=
  andThen (conditionOf c rule) (fun holds t =>
    if holds then postingsOf c rule.decl.actions (noted (.ruleTriggered c.rule id) t) else [])
    (ready c rule id s)

def goOn (c : Scope) (rule : Rule) (id : EntityId) (holds : Bool) : Exec Bool := do
  if holds then
    record (.ruleTriggered c.rule id)
    runActions c rule.decl.actions
  return holds

theorem runRule_eq (c : Scope) (rule : Rule) (id : EntityId) : runRule c rule id = (do
    modify fun s => { s with locals := initialLocals c rule id, frames := [] }
    let holds ← conditionOf c rule
    goOn c rule id holds) := by
  rw [runRule, conditionOf]
  cases rule.decl.condition with
  | none => rfl
  | some condition =>
      simp only [bind_assoc]
      rfl

theorem runRule_logs (c : Scope) (rule : Rule) (id : EntityId) :
    Logs (runRule c rule id) (rulePostings c rule id) := by
  have hcondition : Silent (conditionOf c rule) :=
    conditionOf_closed silent_closed.toComposed (silent_evaluates c) rule
  have hrest (holds : Bool) : Logs (goOn c rule id holds) fun t =>
      if holds then postingsOf c rule.decl.actions (noted (.ruleTriggered c.rule id) t)
      else [] := by
    cases holds with
    | false => exact (silent_closed.pure false).logs
    | true =>
        have htriggered : Silent (record (.ruleTriggered c.rule id)) :=
          makes_record (by simp [TraceEvent.kind])
        exact htriggered.andThen_logs fun _ =>
          (runActions_logs c rule.decl.actions).bind_pure fun _ => true
  rw [runRule_eq]
  exact (silent_closed.begin (initialLocals c rule id)).andThen_logs fun _ =>
    hcondition.andThen_logs hrest

def Pass.postings (c : Scope) (p : Pass) : List Posting :=
  p.turns.flatMap fun t => rulePostings (c.under p.rule) p.rule t.entity t.start

def eventPostings (c : Scope) (stage : Stage) : List Posting :=
  (passes c stage).flatMap (Pass.postings c)

theorem afterTurn_adding (c : Scope) (rule : Rule) (id : EntityId) (s : State) :
    Adding s.scheduler (rulePostings c rule id s) (afterTurn c rule id s).scheduler := by
  have h := runRule_logs c rule id s
  rw [afterTurn]
  rcases attempt_state c rule id s {} with hs | ⟨message, hs⟩
  · rw [hs]
    exact h
  · rw [hs]
    exact h

theorem runOn_adding (c : Scope) (rule : Rule) (ids : List EntityId) (s : State)
    (r : EventReport) : Adding s.scheduler
      ((turnsOn c rule ids s).flatMap fun t => rulePostings c rule t.entity t.start)
      (runOn c rule ids s r).1.scheduler := by
  induction ids generalizing s r with
  | nil => exact .refl s.scheduler
  | cons id ids ih =>
      cases h : s.world.hasEntity id with
      | true =>
          obtain ⟨r', -, hr⟩ := runOn_of_live h r
          rw [turnsOn_of_live h, hr, List.flatMap_cons]
          exact (afterTurn_adding c rule id (noted (.ruleMatched c.rule id) s)).trans (ih _ r')
      | false =>
          rw [turnsOn_of_dead h, runOn_of_dead h]
          exact ih s r

theorem runRules_adding (c : Scope) (rules : List Rule) (s : State) (r : EventReport) :
    Adding s.scheduler ((passesOf c rules s).flatMap (Pass.postings c))
      (runRules c rules s r).1.scheduler := by
  induction rules generalizing s r with
  | nil => exact .refl s.scheduler
  | cons rule rules ih =>
      rw [runRules_cons, passesOf, List.flatMap_cons]
      exact (runOn_adding (c.under rule) rule _ s {}).trans (ih (afterPass c rule s) _)

theorem runEvent_adding (c : Scope) (stage : Stage) : Adding stage.scheduler
    (eventPostings c stage) (runEvent c.rules c.limits c.event stage).1.scheduler := by
  have h := runRules_adding c (c.rules.rulesFor c.event.type) { stage with } {}
  rw [← runRules_rule c ""] at h
  exact h

/-- The rules of an event leave the clock and all that is pending, and what they add comes after
all that the queue ever held: the postings add one event each, or none if they fail or are not to
add any, in the order in which they run. -/
theorem event_only_adds (c : Scope) (stage : Stage) (q : Scheduler) (rs : List Scheduler.Request)
    (hq : stage.scheduler = q.reset.after rs) : ∃ groups,
      List.Forall₂ Posting.Adds (eventPostings c stage) groups ∧
      (runEvent c.rules c.limits c.event stage).1.scheduler.now = stage.scheduler.now ∧
      (runEvent c.rules c.limits c.event stage).1.scheduler.events =
        ↑groups.flatten + stage.scheduler.events ∧
      groups.flatten.Pairwise (fun a b => a.id < b.id ∧ a.sequence < b.sequence) ∧
      ∀ e ∈ groups.flatten, e.time.isNaN = false ∧ stage.scheduler.now.numLe e.time = true ∧
        ∀ f, q.reset.Held rs f → f.id < e.id ∧ f.sequence < e.sequence := by
  have hs : Scheduler.Sound q.reset := Scheduler.empty_sound
  obtain ⟨groups, hgroups, h⟩ := runEvent_adding c stage
  refine ⟨groups, hgroups, h.now, h.events, h.increasing, fun e he => ?_⟩
  obtain ⟨htime, hnow⟩ := h.not_past (hq ▸ hs.after rs) he
  refine ⟨htime, hnow, fun f hf => ?_⟩
  obtain ⟨hid, hsequence⟩ := hs.held_lt hf
  obtain ⟨hid', hsequence'⟩ := h.above he
  rw [← hq] at hid hsequence
  exact ⟨hid.trans_le hid', hsequence.trans_le hsequence'⟩

def trade : Rule :=
  ⟨0, 0, { trigger := ⟨"event", some "morning", []⟩
           actions :=
             [.each "stall" (.literal (.list [.int 1, .int 2])) [.emit ⟨"open", none, none, []⟩],
              .emit ⟨"buy", some (.literal .null), none, []⟩,
              .schedule ⟨"close", none, none, []⟩ (some (.literal (.bool true))) none,
              .emit ⟨"never", none, none, []⟩] }⟩

def morning : Scope where
  rules := { byEvent := [("morning", [trade])] }
  limits := {}
  event := ⟨0, "morning", Binary64.zero, {}, 0, none⟩

def dawn : List Scheduler.Request :=
  [.schedule "morning" Binary64.zero {}, .schedule "evening" Binary64.zero {}, .pop]

def market : Stage :=
  { world := World.empty.create.2, scheduler := Scheduler.empty.reset.after dawn }

theorem market_only_adds : market.scheduler = Scheduler.empty.reset.after dawn ∧
    (eventPostings morning market).map (·.spec.event) = ["open", "open", "buy", "close"] ∧
      ∃ groups, List.Forall₂ Posting.Adds (eventPostings morning market) groups ∧
        (runEvent morning.rules morning.limits morning.event market).1.scheduler.events =
          ↑groups.flatten + market.scheduler.events := by
  obtain ⟨groups, hgroups, -, hevents, -⟩ :=
    event_only_adds morning market Scheduler.empty dawn rfl
  exact ⟨rfl, rfl, groups, hgroups, hevents⟩

end Execution

end RuleSim
