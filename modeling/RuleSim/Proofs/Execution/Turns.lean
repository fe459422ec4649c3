import RuleSim.Proofs.Execution.Change
import RuleSim.Proofs.World.Components
import RuleSim.Proofs.World.Sound

namespace RuleSim

open ComponentStore in
theorem World.Edit.carries {w w' : World} (h : World.Edit w w') {id : EntityId} {component : String}
    (hc : w.components.has id component = true) : w'.components.has id component = true ∨
      w.removeComponent id component = .ok (true, w') ∨ w.delete id = .ok w' := by
  cases h with
  | create => exact .inl hc
  | delete x h =>
      by_cases hx : id = x
      · subst hx
        exact .inr (.inr h)
      · rcases w.delete_cases x with ⟨-, e, he⟩ | ⟨-, hw⟩
        · cases he.symm.trans h
        · cases hw.symm.trans h
          exact .inl (has_removeEntity_of_ne _ _ _ _ hx hc)
  | addComponent x c init h =>
      cases (guarded_ok h).2
      exact .inl ((has_insert ..).mpr (.inr hc))
  | removeComponent x c h =>
      obtain ⟨-, hr⟩ := guarded_ok h
      by_cases hhas : w.components.has x c = true
      · rw [if_pos hhas] at hr
        cases hr
        by_cases hx : id = x ∧ component = c
        · obtain ⟨rfl, rfl⟩ := hx
          exact .inr (.inl h)
        · exact .inl (has_remove_of_ne _ _ _ _ _ hx hc)
      · rw [if_neg hhas] at hr
        cases hr
        exact .inl hc
  | setField x c field v h =>
      obtain ⟨-, hr⟩ := guarded_ok h
      rcases w.components.setField?_cases x c field v with ⟨-, hs⟩ | ⟨-, hs⟩
      · rw [hs] at hr
        cases hr
        exact .inl hc
      · rw [hs] at hr
        cases hr
        exact .inl ((has_write_ensure ..).mpr (.inr hc))
  | clone source h =>
      obtain ⟨-, hr⟩ := guarded_ok h
      cases hr
      exact .inl ((has_insertAll ..).mpr (.inr hc))

namespace Execution

structure Turn where
  entity : EntityId
  start : State

structure Pass where
  rule : Rule
  chosen : State
  turns : List Turn

def afterTurn (c : Scope) (rule : Rule) (id : EntityId) (s : State) : State :=
  (attempt c rule id s {}).1

def turnsOn (c : Scope) (rule : Rule) : List EntityId → State → List Turn
  | [], _ => []
  | id :: ids, s =>
    if s.world.hasEntity id then
      let start := noted (.ruleMatched c.rule id) s
      ⟨id, start⟩ :: turnsOn c rule ids (afterTurn c rule id start)
    else turnsOn c rule ids s

def Scope.under (c : Scope) (rule : Rule) : Scope := { c with rule := rule.name }

def afterPass (c : Scope) (rule : Rule) (s : State) : State :=
  (runOn (c.under rule) rule (candidates (c.under rule) s.world rule) s {}).1

def passesOf (c : Scope) : List Rule → State → List Pass
  | [], _ => []
  | rule :: rules, s =>
    ⟨rule, s, turnsOn (c.under rule) rule (candidates (c.under rule) s.world rule) s⟩ ::
      passesOf c rules (afterPass c rule s)

def passes (c : Scope) (stage : Stage) : List Pass :=
  passesOf c (c.rules.rulesFor c.event.type) { stage with }

variable {c : Scope} {rule : Rule} {id : EntityId} {s : State}

theorem attempt_fst (c : Scope) (rule : Rule) (id : EntityId) (s : State) (r : EventReport) :
    (attempt c rule id s r).1 = afterTurn c rule id s := by
  rw [afterTurn, attempt, attempt]
  cases runRule c rule id s <;> rfl

theorem attempt_matched (c : Scope) (rule : Rule) (id : EntityId) (s : State) (r : EventReport) :
    (attempt c rule id s r).2.matched = r.matched := by
  rw [attempt]
  cases runRule c rule id s <;> rfl

section Turns

variable {ids : List EntityId}

theorem runOn_of_live (h : s.world.hasEntity id = true) (r : EventReport) :
    ∃ r', r'.matched = r.matched + 1 ∧ runOn c rule (id :: ids) s r =
      runOn c rule ids (afterTurn c rule id (noted (.ruleMatched c.rule id) s)) r' := by
  refine ⟨_, attempt_matched c rule id (noted (.ruleMatched c.rule id) s)
    { r with matched := r.matched + 1 }, ?_⟩
  rw [← attempt_fst]
  exact if_pos h

theorem runOn_of_dead (h : s.world.hasEntity id = false) (r : EventReport) :
    runOn c rule (id :: ids) s r = runOn c rule ids s r := if_neg (Bool.eq_false_iff.mp h)

theorem turnsOn_of_live (h : s.world.hasEntity id = true) : turnsOn c rule (id :: ids) s =
    ⟨id, noted (.ruleMatched c.rule id) s⟩ ::
      turnsOn c rule ids (afterTurn c rule id (noted (.ruleMatched c.rule id) s)) := if_pos h

theorem turnsOn_of_dead (h : s.world.hasEntity id = false) :
    turnsOn c rule (id :: ids) s = turnsOn c rule ids s := if_neg (Bool.eq_false_iff.mp h)

end Turns

theorem runOn_fst (c : Scope) (rule : Rule) (ids : List EntityId) (s : State) (r r' : EventReport) :
    (runOn c rule ids s r).1 = (runOn c rule ids s r').1 := by
  induction ids generalizing s r r' with
  | nil => rfl
  | cons id ids ih =>
      cases h : s.world.hasEntity id with
      | true =>
          obtain ⟨q, -, hq⟩ := runOn_of_live h r
          obtain ⟨q', -, hq'⟩ := runOn_of_live h r'
          rw [hq, hq']
          exact ih _ q q'
      | false =>
          rw [runOn_of_dead h, runOn_of_dead h]
          exact ih s r r'

theorem runOn_matched (c : Scope) (rule : Rule) (ids : List EntityId) (s : State)
    (r : EventReport) :
    (runOn c rule ids s r).2.matched = r.matched + (turnsOn c rule ids s).length := by
  induction ids generalizing s r with
  | nil => rfl
  | cons id ids ih =>
      cases h : s.world.hasEntity id with
      | true =>
          obtain ⟨q, hmatched, hq⟩ := runOn_of_live h r
          rw [hq, ih, hmatched, turnsOn_of_live h, List.length_cons, Nat.add_right_comm,
            Nat.add_assoc]
      | false =>
          rw [runOn_of_dead h, turnsOn_of_dead h]
          exact ih s r

theorem runRules_cons (c : Scope) (rule : Rule) (rules : List Rule) (s : State) (r : EventReport) :
    runRules c (rule :: rules) s r = runRules c rules (afterPass c rule s)
      (runOn (c.under rule) rule (candidates (c.under rule) s.world rule) s r).2 := by
  rw [runRules, afterPass, runOn_fst _ _ _ _ {} r]
  exact runRules_rule c rule.name rules _ _

theorem runRules_matched (c : Scope) (rules : List Rule) (s : State) (r : EventReport) :
    (runRules c rules s r).2.matched =
      r.matched + ((passesOf c rules s).flatMap Pass.turns).length := by
  induction rules generalizing c s r with
  | nil => rfl
  | cons rule rules ih =>
      rw [runRules_cons, ih, runOn_matched, passesOf, List.flatMap_cons, List.length_append,
        Nat.add_assoc]

def Turn.finish (c : Scope) (rule : Rule) (t : Turn) : State := afterTurn c rule t.entity t.start

def worldAfter (c : Scope) (rule : Rule) (w : World) (turns : List Turn) : World :=
  turns.foldl (fun _ t => (t.finish c rule).world) w

theorem worldAfter_concat (c : Scope) (rule : Rule) (w : World) (turns : List Turn) (t : Turn) :
    worldAfter c rule w (turns ++ [t]) = (t.finish c rule).world :=
  List.foldl_concat ..

theorem start_of_turn {ids : List EntityId} {before after : List Turn} {t : Turn}
    (h : turnsOn c rule ids s = before ++ t :: after) :
    t.entity ∈ ids ∧ t.start.world.hasEntity t.entity = true ∧
      t.start.world = worldAfter c rule s.world before := by
  induction ids generalizing s before with
  | nil => simp [turnsOn] at h
  | cons id ids ih =>
      cases hid : s.world.hasEntity id with
      | true =>
          rw [turnsOn_of_live hid] at h
          cases before with
          | nil =>
              obtain ⟨rfl, -⟩ := List.cons.inj h
              exact ⟨List.mem_cons_self, hid, rfl⟩
          | cons u before =>
              obtain ⟨rfl, hrest⟩ := List.cons.inj h
              obtain ⟨hmem, hlive, hstart⟩ := ih hrest
              exact ⟨List.mem_cons_of_mem _ hmem, hlive, hstart⟩
      | false =>
          rw [turnsOn_of_dead hid] at h
          obtain ⟨hmem, hlive, hstart⟩ := ih h
          exact ⟨List.mem_cons_of_mem _ hmem, hlive, hstart⟩

theorem mem_passesOf {rules : List Rule} {p : Pass} (h : p ∈ passesOf c rules s) :
    p.turns = turnsOn (c.under p.rule) p.rule
      (candidates (c.under p.rule) p.chosen.world p.rule) p.chosen := by
  induction rules generalizing s with
  | nil => cases h
  | cons rule rules ih =>
      rcases List.mem_cons.mp h with rfl | h
      · rfl
      · exact ih h

def Carries (w : World) (id : EntityId) (component : String) : Prop :=
  w.components.has id component = true

theorem passesFilter_iff {w : World} {filter : List String} :
    passesFilter w id filter = true ↔
      w.hasEntity id = true ∧ ∀ component ∈ filter, Carries w id component := by
  simp only [passesFilter, World.hasComponent, Bool.and_eq_true, List.all_eq_true, Carries]
  constructor
  · rintro ⟨hlive, h⟩
    exact ⟨hlive, fun component hc => (h component hc).2⟩
  · rintro ⟨hlive, h⟩
    exact ⟨hlive, fun component hc => ⟨hlive, h component hc⟩⟩

theorem passesFilter_of_boundCandidate? {w : World} {filter slots : List String}
    (h : boundCandidate? c w filter slots = some id) : passesFilter w id filter = true := by
  induction slots with
  | nil => cases h
  | cons slot slots ih =>
      rw [boundCandidate?] at h
      by_cases hslot : slot = "source"
      · rw [if_pos hslot] at h
        exact ih h
      · rw [if_neg hslot] at h
        cases hc : (c.slot slot).asEntity?.filter (passesFilter w · filter) with
        | none =>
            rw [hc] at h
            exact ih h
        | some id' =>
            rw [hc] at h
            cases h
            exact (Option.filter_eq_some_iff.mp hc).2

/-- Candidates carry what the filter lists when they are chosen. -/
theorem carries_of_mem_candidates {w : World} (h : id ∈ candidates c w rule) :
    ∀ component ∈ rule.decl.requiredComponents, Carries w id component := by
  rw [candidates] at h
  split at h
  · next id' hsource =>
      rw [List.mem_singleton] at h
      subst h
      exact (passesFilter_iff.mp (Option.filter_eq_some_iff.mp hsource).2).2
  · split at h
    · next id' hbound =>
        rw [List.mem_singleton] at h
        subst h
        exact (passesFilter_iff.mp (passesFilter_of_boundCandidate? hbound)).2
    · rw [World.query] at h
      split at h
      · next hempty =>
          rw [List.isEmpty_iff.mp hempty]
          exact nofun
      · exact (w.components.mem_withAll id).mp h |>.2

section Taking

variable {types : String → Prop} {c : Scope} {rule : Rule} {id : EntityId} {component : String}

theorem exists_edit_of_lost {s t : Stage} (h : Changes types s t)
    (hs : Carries s.world id component) (ht : ¬ Carries t.world id component) :
    ∃ u v : Stage, Changes types s u ∧ Changes types v t ∧
      (u.world.removeComponent id component = .ok (true, v.world) ∨
        u.world.delete id = .ok v.world) := by
  induction h with
  | refl => exact absurd hs ht
  | @tail u v hsu huv ih =>
      by_cases hu : Carries u.world id component
      · cases huv with
        | world hedit =>
            rcases hedit.carries hu with hv | hv
            · exact absurd hv ht
            · exact ⟨u, _, hsu, .refl, hv⟩
        | _ => exact absurd hu ht
      · obtain ⟨x, y, hx, hy, hedit⟩ := ih hu
        exact ⟨x, y, hx, hy.tail huv, hedit⟩

def Turn.Takes (c : Scope) (rule : Rule) (t : Turn) (id : EntityId) (component : String) : Prop :=
  Carries t.start.world id component ∧ ¬ Carries (t.finish c rule).world id component

/-- One of the turns takes the component, and no later one gives it back. -/
def Lost (c : Scope) (rule : Rule) (turns : List Turn) (id : EntityId) (component : String) :
    Prop :=
  ∃ before t after, turns = before ++ t :: after ∧ t.Takes c rule id component ∧
    ∀ u ∈ after, ¬ Carries (u.finish c rule).world id component

theorem Turn.Takes.edit {t : Turn} (h : t.Takes c rule id component) :
    ∃ u v : Stage, Changes (fun _ => True) t.start.toStage u ∧
      Changes (fun _ => True) v (t.finish c rule).toStage ∧
        (u.world.removeComponent id component = .ok (true, v.world) ∨
          u.world.delete id = .ok v.world) :=
  exists_edit_of_lost (attempt_changes c t.entity t.start {} fun _ _ => trivial) h.1 h.2

/-- The induction is on the turns before, from the last one back. -/
theorem lost_of_not_carries {ids : List EntityId} {s : State} {before after : List Turn} {t : Turn}
    (h : turnsOn c rule ids s = before ++ t :: after) (hs : Carries s.world id component)
    (ht : ¬ Carries t.start.world id component) : Lost c rule before id component := by
  induction before using List.reverseRecOn generalizing t after with
  | nil =>
      rw [(start_of_turn h).2.2] at ht
      exact absurd hs ht
  | append_singleton before u ih =>
      have hfinish := (start_of_turn h).2.2
      rw [worldAfter_concat] at hfinish
      rw [hfinish] at ht
      by_cases hu : Carries u.start.world id component
      · exact ⟨before, u, [], rfl, ⟨hu, ht⟩, nofun⟩
      · rw [List.append_assoc] at h
        obtain ⟨first, v, rest, rfl, hv, hrest⟩ := ih h hu
        refine ⟨first, v, rest ++ [u], by simp, hv, ?_⟩
        rw [List.forall_mem_append, List.forall_mem_singleton]
        exact ⟨hrest, ht⟩

theorem not_carries_of_lost {ids : List EntityId} {s : State} {before after : List Turn} {t : Turn}
    (h : turnsOn c rule ids s = before ++ t :: after) (hlost : Lost c rule before id component) :
    ¬ Carries t.start.world id component := by
  obtain ⟨first, v, rest, rfl, hv, hrest⟩ := hlost
  rw [(start_of_turn h).2.2]
  rcases rest.eq_nil_or_concat with rfl | ⟨rest, u, rfl⟩
  · rw [worldAfter_concat]
    exact hv.2
  · rw [List.concat_eq_append, ← List.cons_append, ← List.append_assoc, worldAfter_concat]
    exact hrest u (by simp)

/-- As many pairs have a turn as are reported. Whoever has a turn is live, and carried what the
filter lists when the pass started. It carries all that when its turn starts just if no turn before
in the same pass took a part of it that was not given back. Only the removal of a component or the
end of the entity takes anything. -/
theorem turns_filtered_iff (c : Scope) (stage : Stage) :
    ((passes c stage).flatMap Pass.turns).length =
        (runEvent c.rules c.limits c.event stage).2.matched ∧
      ∀ p ∈ passes c stage, ∀ (before after : List Turn) (t : Turn),
        p.turns = before ++ t :: after →
          t.start.world.hasEntity t.entity = true ∧
          (∀ component ∈ p.rule.decl.requiredComponents,
            Carries p.chosen.world t.entity component) ∧
          (passesFilter t.start.world t.entity p.rule.decl.requiredComponents = true ↔
            ∀ component ∈ p.rule.decl.requiredComponents,
              ¬ Lost (c.under p.rule) p.rule before t.entity component) ∧
          ∀ u ∈ before, ∀ id component, u.Takes (c.under p.rule) p.rule id component →
            ∃ s s' : Stage, Changes (fun _ => True) u.start.toStage s ∧
              Changes (fun _ => True) s' (u.finish (c.under p.rule) p.rule).toStage ∧
                (s.world.removeComponent id component = .ok (true, s'.world) ∨
                  s.world.delete id = .ok s'.world) := by
  constructor
  · have hcount := runRules_matched c (c.rules.rulesFor c.event.type) { stage with } {}
    rw [Nat.zero_add, ← runRules_rule c ""] at hcount
    exact hcount.symm
  · intro p hp before after t ht
    rw [mem_passesOf hp] at ht
    obtain ⟨hmem, hlive, -⟩ := start_of_turn ht
    have hcarried := carries_of_mem_candidates hmem
    refine ⟨hlive, hcarried, ?_, fun u _ id component hu => hu.edit⟩
    rw [passesFilter_iff]
    constructor
    · rintro ⟨-, hcarries⟩ component hc hlost
      exact not_carries_of_lost ht hlost (hcarries component hc)
    · intro hkept
      refine ⟨hlive, fun component hc => ?_⟩
      by_contra hnot
      exact hkept component hc (lost_of_not_carries ht (hcarried component hc) hnot)

end Taking

def sentries : World :=
  { entities := ⟨[.ofNat 1, .ofNat 2], 3⟩
    components :=
      { data := [("Watch", [(.ofNat 1, []), (.ofNat 2, [])])]
        attached := [(.ofNat 1, ["Watch"]), (.ofNat 2, ["Watch"])] } }

def relieve (e : EntityRef) : Rule :=
  ⟨0, 0, { trigger := ⟨"event", some "bell", []⟩, filter := some ["Watch"],
           actions := [.removeComponent e "Watch"] }⟩

def bell (rule : Rule) : Scope where
  rules := { byEvent := [("bell", [rule])] }
  limits := {}
  event := ⟨0, "bell", Binary64.zero, {}, 0, none⟩

/-- Each sentry goes off watch alone. -/
theorem relieved_filtered : ∃ p first second,
    passes (bell (relieve (.named "entity"))) { world := sentries } = [p] ∧
      p.turns = [first, second] ∧
        passesFilter second.start.world second.entity p.rule.decl.requiredComponents = true := by
  refine ⟨_, _, _, rfl, rfl, ?_⟩
  obtain ⟨-, -, hiff, -⟩ := (turns_filtered_iff (bell (relieve (.named "entity")))
    { world := sentries }).2 _ (List.mem_singleton_self _) [_] [] _ rfl
  apply hiff.mpr
  rintro component hc ⟨before, t, after, heq, htakes, -⟩
  obtain rfl : component = "Watch" := List.mem_singleton.mp hc
  cases before with
  | nil =>
      obtain ⟨rfl, -⟩ := List.cons.inj heq
      exact htakes.2 rfl
  | cons u before =>
      obtain ⟨-, hrest⟩ := List.cons.inj heq
      simp at hrest

/-- The first sentry relieves the second. -/
theorem relieved_not_filtered : ∃ p first second,
    passes (bell (relieve (.computed (.literal (.entity (.ofNat 2)))))) { world := sentries } = [p] ∧
      p.turns = [first, second] ∧ second.entity = .ofNat 2 ∧
        passesFilter second.start.world second.entity p.rule.decl.requiredComponents = false :=
  ⟨_, _, _, rfl, rfl, rfl, rfl⟩

end Execution

end RuleSim
