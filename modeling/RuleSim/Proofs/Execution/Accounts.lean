import RuleSim.Proofs.Execution.Postings

namespace RuleSim

namespace TraceEvent

def isOfRule : TraceEvent → Bool
  | ruleMatched .. | ruleTriggered .. | ruleFailed .. => true
  | eventFired .. | limitReached .. | entitySpawned .. | entityDespawned ..
  | recoveryScheduled .. => false

theorem IsEffect.not_ofRule {e : TraceEvent} (h : e.IsEffect) : e.isOfRule = false := by
  cases e with
  | ruleMatched | ruleTriggered | ruleFailed => exact h.elim
  | _ => rfl

theorem isOfRule_of_kind {e : TraceEvent}
    (h : e.kind ∈ ["rule_matched", "rule_triggered", "rule_failed"]) : e.isOfRule = true := by
  cases e with
  | ruleMatched | ruleTriggered | ruleFailed => rfl
  | _ => simp [kind] at h

end TraceEvent

def RuleFailure.note (f : RuleFailure) : TraceEvent :=
  .ruleFailed f.rule f.entity f.error.message

namespace TraceSink

/-- Tracing goes on, and while it is on, the account is all that is reported about rules. -/
structure Accounts (t : TraceSink) (account : List TraceEvent) (u : TraceSink) : Prop where
  enabled : u.enabled = t.enabled
  added : t.enabled = true → ∃ added, u.events.toList = t.events.toList ++ added ∧
    added.filter (·.isOfRule) = account

theorem Accounts.refl (t : TraceSink) : t.Accounts [] t where
  enabled := rfl
  added _ := ⟨[], (List.append_nil _).symm, rfl⟩

theorem Accounts.trans {t u v : TraceSink} {account account' : List TraceEvent}
    (h : t.Accounts account u) (h' : u.Accounts account' v) :
    t.Accounts (account ++ account') v where
  enabled := h'.enabled.trans h.enabled
  added hon := by
    obtain ⟨added, hadded, hrules⟩ := h.added hon
    obtain ⟨added', hadded', hrules'⟩ := h'.added (h.enabled.trans hon)
    refine ⟨added ++ added', ?_, ?_⟩
    · rw [hadded', hadded, List.append_assoc]
    · rw [List.filter_append, hrules, hrules']

theorem record_accounts (t : TraceSink) (e : TraceEvent) :
    t.Accounts ([e].filter (·.isOfRule)) (t.record e) where
  enabled := t.record_enabled e
  added hon := ⟨[e], by rw [record, if_pos hon, Array.toList_push], rfl⟩

theorem record_other (t : TraceSink) {e : TraceEvent} (h : e.isOfRule = false) :
    t.Accounts [] (t.record e) := by
  have hrecord := t.record_accounts e
  rw [List.filter_singleton, h] at hrecord
  exact hrecord

end TraceSink

namespace Execution

variable {α : Type}

def SameAccount (s t : State) : Prop := s.trace.Accounts [] t.trace

abbrev Discreet (x : Exec α) : Prop := ∀ s, SameAccount s (final x s)

theorem SameAccount.refl (s : State) : SameAccount s s := TraceSink.Accounts.refl s.trace

theorem sameAccount_moving : Moving SameAccount where
  refl := .refl
  trans h h' := h.trans h'
  noted _ s h := s.trace.record_other h.not_ofRule
  drawn s _ := .refl s
  written _ := .refl _
  cloned _ := .refl _

theorem discreet_onWorld (f : World → Except Error (α × World)) : Discreet (onWorld f) :=
  onWorld_relates .refl fun s _ _ _ => .refl s

theorem discreet_addEvent (type : String) (delay : Binary64) (interval : Option Binary64)
    (payload : Payload) : Discreet (addEvent type delay interval payload) := by
  intro s
  rw [addEvent, final_get_bind]
  cases interval with
  | none => exact .refl s
  | some interval =>
      dsimp only
      split
      · exact .refl s
      · exact .refl s

theorem discreet_closed : Closed (fun _ => True) fun x => Discreet x where
  toEvaluable := sameAccount_moving.evaluable
  setLocal _ _ s := .refl s
  create := discreet_onWorld _
  delete _ := discreet_onWorld _
  addComponent _ _ _ := discreet_onWorld _
  removeComponent _ _ := discreet_onWorld _
  addEvent _ := discreet_addEvent _
  inFrame name frame _ hb s := by
    rw [final_inFrame]
    exact hb { s with frames := frame :: s.frames }
  keepingLocal name _ hb s := by
    rw [final_keepingLocal]
    exact hb s
  begin _ s := .refl s

theorem discreet_evaluates (c : Scope) : Evaluates c fun x => Discreet x :=
  discreet_closed.toInvocable.evaluates c

structure Trial extends Turn where
  scope : Scope
  rule : Rule

namespace Trial

def passed (t : Trial) : Bool :=
  match conditionOf t.scope t.rule (ready t.scope t.rule t.entity t.start) with
  | .ok holds _ => holds
  | .error _ _ => false

def failure? (t : Trial) : Option RuleFailure :=
  match runRule t.scope t.rule t.entity t.start with
  | .ok _ _ => none
  | .error e _ =>
    some ⟨t.scope.rule, t.entity, e.inRule t.scope.rule t.scope.event.type t.entity⟩

def matching (t : Trial) : TraceEvent := .ruleMatched t.scope.rule t.entity

def triggering (t : Trial) : TraceEvent := .ruleTriggered t.scope.rule t.entity

def account (t : Trial) : List TraceEvent :=
  t.matching :: ((if t.passed then [t.triggering] else []) ++ (t.failure?.map (·.note)).toList)

def counted (t : Trial) : Bool := t.failure?.isNone && t.passed

end Trial

theorem runRule_ready (c : Scope) (rule : Rule) (id : EntityId) (s : State) : runRule c rule id s =
    (conditionOf c rule >>= goOn c rule id) (ready c rule id s) := by
  rw [runRule_eq]
  rfl

theorem goOn_true (c : Scope) (rule : Rule) (id : EntityId) (s : State) : goOn c rule id true s =
    (runActions c rule.decl.actions >>= fun _ => pure true)
      (noted (.ruleTriggered c.rule id) s) := rfl

inductive Trial.Runs (t : Trial) : (passed : Bool) → EStateM.Result Error State Bool → Prop
  | unknown {e : Error} {u : State} (h : SameAccount t.start u) : Runs t false (.error e u)
  | idle {u : State} (h : SameAccount t.start u) : Runs t false (.ok false u)
  | acted {u : State} (h : t.start.trace.Accounts [t.triggering] u.trace) : Runs t true (.ok true u)
  | failed {e : Error} {u : State} (h : t.start.trace.Accounts [t.triggering] u.trace) :
      Runs t true (.error e u)

theorem Trial.runs (t : Trial) : t.Runs t.passed (runRule t.scope t.rule t.entity t.start) := by
  obtain ⟨⟨id, s⟩, c, rule⟩ := t
  have hcondition := conditionOf_closed discreet_closed.toComposed (discreet_evaluates c) rule
    (ready c rule id s)
  rw [runRule_ready, passed]
  cases hholds : conditionOf c rule (ready c rule id s) with
  | error e u =>
      rw [final_of_error hholds] at hcondition
      rw [bind_of_error hholds]
      exact .unknown hcondition
  | ok holds u =>
      rw [final_of_ok hholds] at hcondition
      rw [bind_of_ok hholds]
      cases holds with
      | false => exact .idle hcondition
      | true =>
          have htriggered := u.trace.record_accounts (.ruleTriggered c.rule id)
          have hactions := runActions_closed discreet_closed.toComposed (discreet_evaluates c)
            rule.decl.actions (fun _ _ => trivial) (noted (.ruleTriggered c.rule id) u)
          have haccount := (hcondition.trans htriggered).trans hactions
          rw [goOn_true]
          cases hrun : runActions c rule.decl.actions (noted (.ruleTriggered c.rule id) u) with
          | ok _ v =>
              rw [final_of_ok hrun] at haccount
              rw [bind_of_ok hrun]
              exact .acted haccount
          | error e v =>
              rw [final_of_error hrun] at haccount
              rw [bind_of_error hrun]
              exact .failed haccount

/-- What trace and report say between two moments is what there is to say of the turns. -/
structure Recounts (p : State × EventReport) (ts : List Trial) (q : State × EventReport) :
    Prop where
  trace : p.1.trace.Accounts (ts.flatMap Trial.account) q.1.trace
  matched : q.2.matched = p.2.matched + ts.length
  triggered : q.2.triggered = p.2.triggered + ts.countP Trial.counted
  failures : q.2.failures = p.2.failures ++ ts.filterMap Trial.failure?

theorem Recounts.refl (p : State × EventReport) : Recounts p [] p where
  trace := .refl p.1.trace
  matched := rfl
  triggered := rfl
  failures := (List.append_nil _).symm

theorem Recounts.trans {p q q' : State × EventReport} {ts ts' : List Trial}
    (h : Recounts p ts q) (h' : Recounts q ts' q') : Recounts p (ts ++ ts') q' where
  trace := by
    rw [List.flatMap_append]
    exact h.trace.trans h'.trace
  matched := by rw [h'.matched, h.matched, List.length_append, Nat.add_assoc]
  triggered := by rw [h'.triggered, h.triggered, List.countP_append, Nat.add_assoc]
  failures := by rw [h'.failures, h.failures, List.filterMap_append, List.append_assoc]

/-- What an attempt adds to both accounts after the match was noted. -/
theorem Trial.attempt_accounts (t : Trial) (r : EventReport) :
    t.start.trace.Accounts
        ((if t.passed then [t.triggering] else []) ++ (t.failure?.map (·.note)).toList)
        (attempt t.scope t.rule t.entity t.start r).1.trace ∧
      (attempt t.scope t.rule t.entity t.start r).2.triggered =
        r.triggered + [t].countP Trial.counted ∧
      (attempt t.scope t.rule t.entity t.start r).2.failures =
        r.failures ++ [t].filterMap Trial.failure? := by
  have hrun := t.runs
  generalize hx : runRule t.scope t.rule t.entity t.start = x, hp : t.passed = passed at hrun
  simp only [attempt, List.countP_singleton, List.filterMap_cons, counted, failure?, hx, hp]
  cases hrun with
  | unknown h => exact ⟨h.trans (TraceSink.record_accounts _ (.ruleFailed ..)), rfl, rfl⟩
  | idle h => exact ⟨h, rfl, (List.append_nil _).symm⟩
  | acted h => exact ⟨h, rfl, (List.append_nil _).symm⟩
  | failed h => exact ⟨h.trans (TraceSink.record_accounts _ (.ruleFailed ..)), rfl, rfl⟩

theorem attempt_recounts (c : Scope) (rule : Rule) (id : EntityId) (s : State) (r : EventReport) :
    Recounts (s, r) [⟨⟨id, noted (.ruleMatched c.rule id) s⟩, c, rule⟩]
      (attempt c rule id (noted (.ruleMatched c.rule id) s)
        { r with matched := r.matched + 1 }) := by
  have hmatched := s.trace.record_accounts (.ruleMatched c.rule id)
  obtain ⟨htrace, htriggered, hfailures⟩ :=
    Trial.attempt_accounts ⟨⟨id, noted (.ruleMatched c.rule id) s⟩, c, rule⟩
      { r with matched := r.matched + 1 }
  refine ⟨?_, attempt_matched c rule id _ _, htriggered, hfailures⟩
  rw [List.flatMap_singleton]
  exact hmatched.trans htrace

/-- Candidates that died meanwhile leave no account. -/
theorem runOn_recounts (c : Scope) (rule : Rule) (ids : List EntityId) (s : State)
    (r : EventReport) :
    Recounts (s, r) ((turnsOn c rule ids s).map (⟨·, c, rule⟩)) (runOn c rule ids s r) := by
  induction ids generalizing s r with
  | nil => exact .refl (s, r)
  | cons id ids ih =>
      cases h : s.world.hasEntity id with
      | true =>
          have hstep := attempt_recounts c rule id s r
          have hrun : runOn c rule (id :: ids) s r = runOn c rule ids _ _ := if_pos h
          rw [hrun, turnsOn_of_live h, List.map_cons, ← attempt_fst]
          exact hstep.trans (ih _ _)
      | false =>
          rw [runOn_of_dead h, turnsOn_of_dead h]
          exact ih s r

def Pass.trials (c : Scope) (p : Pass) : List Trial := p.turns.map (⟨·, c.under p.rule, p.rule⟩)

def trials (c : Scope) (stage : Stage) : List Trial := (passes c stage).flatMap (Pass.trials c)

theorem runRules_recounts (c : Scope) (rules : List Rule) (s : State) (r : EventReport) :
    Recounts (s, r) ((passesOf c rules s).flatMap (Pass.trials c)) (runRules c rules s r) := by
  induction rules generalizing s r with
  | nil => exact .refl (s, r)
  | cons rule rules ih =>
      have hpass := runOn_recounts (c.under rule) rule
        (candidates (c.under rule) s.world rule) s r
      have hafter : (runOn (c.under rule) rule (candidates (c.under rule) s.world rule) s r).1 =
          afterPass c rule s := runOn_fst ..
      rw [runRules_cons, passesOf, List.flatMap_cons, ← hafter]
      exact hpass.trans (ih _ _)

theorem runEvent_recounts (c : Scope) (stage : Stage) :
    stage.trace.Accounts ((trials c stage).flatMap Trial.account)
        (runEvent c.rules c.limits c.event stage).1.trace ∧
      (runEvent c.rules c.limits c.event stage).2.matched = (trials c stage).length ∧
      (runEvent c.rules c.limits c.event stage).2.triggered =
        (trials c stage).countP Trial.counted ∧
      (runEvent c.rules c.limits c.event stage).2.failures =
        (trials c stage).filterMap Trial.failure? := by
  have h := runRules_recounts c (c.rules.rulesFor c.event.type) { stage with } {}
  rw [← runRules_rule c ""] at h
  exact ⟨h.trace, h.matched.trans (Nat.zero_add _), h.triggered.trans (Nat.zero_add _),
    h.failures.trans (List.nil_append _)⟩

theorem Trial.account_kinds (t : Trial) :
    t.account.filter (·.kind = "rule_matched") = [t.matching] ∧
      t.account.filter (·.kind = "rule_triggered") = (if t.passed then [t.triggering] else []) ∧
      t.account.filter (·.kind = "rule_failed") = (t.failure?.map (·.note)).toList := by
  rw [account]
  cases t.passed <;> cases t.failure? <;>
    simp [matching, triggering, RuleFailure.note, TraceEvent.kind]

theorem filter_kind {added : List TraceEvent} {ts : List Trial} {kind : String}
    {part : Trial → List TraceEvent}
    (h : added.filter (·.isOfRule) = ts.flatMap Trial.account)
    (hkind : kind ∈ ["rule_matched", "rule_triggered", "rule_failed"])
    (hpart : ∀ t : Trial, t.account.filter (·.kind = kind) = part t) :
    added.filter (·.kind = kind) = ts.flatMap part := by
  rw [← funext hpart, ← List.filter_flatMap, ← h, List.filter_filter]
  apply List.filter_congr
  intro e _
  by_cases he : e.kind = kind
  · rw [TraceEvent.isOfRule_of_kind (he ▸ hkind), Bool.and_true]
  · simp [he]

theorem flatMap_triggering (ts : List Trial) :
    (ts.flatMap fun t => if t.passed then [t.triggering] else []) =
      (ts.filter Trial.passed).map Trial.triggering := by
  induction ts with
  | nil => rfl
  | cons t ts ih =>
      rw [List.flatMap_cons, ih]
      cases ht : t.passed <;> simp [ht]

/-- While tracing is on, as many pairs are reported as matched as the trace names so, and just the
failures that the trace names, in its order. The trace names all pairs whose condition held as
triggered. The report counts as many just if none of them failed afterwards. -/
theorem report_agrees_iff (c : Scope) (stage : Stage) (h : stage.trace.enabled = true) :
    ∃ added, (runEvent c.rules c.limits c.event stage).1.trace.events.toList =
        stage.trace.events.toList ++ added ∧
      (runEvent c.rules c.limits c.event stage).2.matched =
        added.countP (·.kind = "rule_matched") ∧
      (runEvent c.rules c.limits c.event stage).2.failures.map (·.note) =
        added.filter (·.kind = "rule_failed") ∧
      added.filter (·.kind = "rule_triggered") =
        ((trials c stage).filter Trial.passed).map Trial.triggering ∧
      ((runEvent c.rules c.limits c.event stage).2.triggered =
          added.countP (·.kind = "rule_triggered") ↔
        ∀ t ∈ trials c stage, t.passed = true → t.failure? = none) := by
  obtain ⟨htrace, hmatched, htriggered, hfailures⟩ := runEvent_recounts c stage
  obtain ⟨added, hadded, haccount⟩ := htrace.added h
  have hmatchings := filter_kind haccount (by simp) fun t => t.account_kinds.1
  have hfailings := filter_kind haccount (by simp) fun t => t.account_kinds.2.2
  have htriggerings := filter_kind haccount (by simp) fun t => t.account_kinds.2.1
  rw [flatMap_triggering] at htriggerings
  refine ⟨added, hadded, ?_, ?_, htriggerings, ?_⟩
  · rw [hmatched, List.countP_eq_length_filter, hmatchings]
    simp
  · rw [hfailures, hfailings, ← List.filterMap_eq_flatMap_toList, List.map_filterMap]
  · rw [htriggered, List.countP_eq_length_filter (l := added), htriggerings, List.length_map]
    have hcounted : (trials c stage).countP Trial.counted =
        ((trials c stage).filter Trial.passed).countP (·.failure?.isNone) :=
      List.countP_filter.symm
    rw [hcounted, List.countP_eq_length]
    simp only [List.mem_filter, Option.isNone_iff_eq_none, and_imp]

def shareLoaf (alone : Nat) : Rule :=
  ⟨0, 0, { trigger := ⟨"event", some "bell", []⟩
           actions :=
             [.branch (.binary .eq (.var "entity") (.literal (.entity (.ofNat alone))))
               [.bind "share" (.binary .divide (.literal (.int 1)) (.literal (.int 0)))] none] }⟩

def watched : Stage := { world := sentries, trace := { enabled := true } }

theorem shared_loaf_agrees : watched.trace.enabled = true ∧
    (trials (bell (shareLoaf 3)) watched).map (·.entity) = [.ofNat 1, .ofNat 2] ∧
      ∃ added, (runEvent (bell (shareLoaf 3)).rules {} (bell (shareLoaf 3)).event
          watched).1.trace.events.toList = added ∧
        (runEvent (bell (shareLoaf 3)).rules {} (bell (shareLoaf 3)).event watched).2.triggered =
          added.countP (·.kind = "rule_triggered") := by
  obtain ⟨added, hadded, -, -, -, hiff⟩ := report_agrees_iff (bell (shareLoaf 3)) watched rfl
  refine ⟨rfl, rfl, added, hadded, hiff.mpr ?_⟩
  have hfine : (trials (bell (shareLoaf 3)) watched).all (·.failure?.isNone) = true := rfl
  intro t ht _
  exact Option.isNone_iff_eq_none.mp (List.all_eq_true.mp hfine t ht)

/-- The sentry that is alone is traced as triggered, and not counted. -/
theorem lone_sentry_not_counted : ¬ ∀ (c : Scope) (stage : Stage) (added : List TraceEvent),
    stage.trace.enabled = true →
    (runEvent c.rules c.limits c.event stage).1.trace.events.toList =
      stage.trace.events.toList ++ added →
    (runEvent c.rules c.limits c.event stage).2.triggered =
      added.countP (·.kind = "rule_triggered") := by
  intro h
  have hcount := h (bell (shareLoaf 1)) watched _ rfl rfl
  exact absurd hcount (by decide)

end Execution

end RuleSim
