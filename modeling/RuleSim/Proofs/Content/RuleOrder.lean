import RuleSim.Proofs.Content.RuleIds
import RuleSim.Proofs.Simulation.Reachable

namespace RuleSim

namespace Rule

def Before (r s : Rule) : Prop :=
  s.priority < r.priority ∨ s.priority = r.priority ∧ r.loadIndex < s.loadIndex

end Rule

namespace RuleSet

theorem place_perm (r : Rule) (rules : List Rule) : (place r rules).Perm (r :: rules) := by
  induction rules with
  | nil => exact .refl _
  | cons s rest ih =>
      rw [place]
      split
      · exact (ih.cons s).trans (.swap ..)
      · exact .refl _

theorem place_pairwise {r : Rule} {rules : List Rule} (h : rules.Pairwise Rule.Before)
    (hlast : ∀ s ∈ rules, s.loadIndex < r.loadIndex) : (place r rules).Pairwise Rule.Before := by
  induction rules with
  | nil => exact List.pairwise_singleton ..
  | cons s rest ih =>
      obtain ⟨hs, hrest⟩ := List.pairwise_cons.mp h
      obtain ⟨hsr, hlast⟩ := List.forall_mem_cons.mp hlast
      rw [place]
      split
      · next hle =>
          refine List.pairwise_cons.mpr ⟨fun x hx => ?_, ih hrest hlast⟩
          rcases mem_place.mp hx with rfl | hx
          · exact hle.lt_or_eq.imp_right fun heq => ⟨heq, hsr⟩
          · exact hs x hx
      · next hlt =>
          have hrs : s.priority < r.priority := Int.not_le.mp hlt
          refine List.pairwise_cons.mpr ⟨fun x hx => .inl ?_, h⟩
          rcases List.mem_cons.mp hx with rfl | hx
          · exact hrs
          · rcases hs x hx with hxs | ⟨hxs, -⟩
            · exact hxs.trans hrs
            · exact hxs.trans_lt hrs

inductive Addition where
  | rule (d : RuleDecl)
  | function (f : FunctionDecl)
  | constant (name : String) (v : Value)

def Addition.rule? : Addition → Option RuleDecl
  | .rule d => some d
  | .function _ | .constant .. => none

def add (s : RuleSet) : Addition → RuleSet
  | .rule d => s.addRule d
  | .function f => (s.addFunction f).2
  | .constant name v => s.addConstant name v

def addAll (s : RuleSet) (as : List Addition) : RuleSet := as.foldl add s

def built (as : List Addition) : RuleSet := empty.addAll as

def added (as : List Addition) : List Rule := (as.filterMap (·.rule?)).zipIdx.map Rule.numbered

theorem addAll_append (s : RuleSet) (as bs : List Addition) :
    s.addAll (as ++ bs) = (s.addAll as).addAll bs := List.foldl_append

theorem added_append (as : List Addition) (a : Addition) :
    added (as ++ [a]) = added as ++
      (a.rule?.map fun d => Rule.numbered (d, (added as).length)).toList := by
  have hlength : (added as).length = (as.filterMap (·.rule?)).length := by simp [added]
  rw [hlength, added, List.filterMap_append, List.zipIdx_append, List.map_append, Nat.zero_add]
  cases h : a.rule? <;> simp [added, h]

structure Ordered (s : RuleSet) : Prop where
  complete (event : String) : (s.rulesFor event).Perm (s.rules.filter (·.event = event))
  order (event : String) : (s.rulesFor event).Pairwise Rule.Before

theorem Ordered.congr {s t : RuleSet} (h : s.Ordered) (hrules : t.rules = s.rules)
    (hfor : ∀ event, t.rulesFor event = s.rulesFor event) : t.Ordered where
  complete event := by
    rw [hfor, hrules]
    exact h.complete event
  order event := by
    rw [hfor]
    exact h.order event

theorem Ordered.addRule {s : RuleSet} (h : s.Ordered)
    (hindex : ∀ r ∈ s.rules, r.loadIndex < s.rules.length) (d : RuleDecl) :
    (s.addRule d).Ordered where
  complete event := by
    have hrules : (s.addRule d).rules = s.rules ++ [.numbered (d, s.rules.length)] := rfl
    rw [rulesFor_addRule, hrules, List.filter_append, List.filter_singleton]
    by_cases he : event = (Rule.numbered (d, s.rules.length)).event
    · rw [if_pos he, decide_eq_true he.symm]
      exact ((place_perm ..).trans ((h.complete event).cons _)).trans
        (List.perm_append_singleton _ _).symm
    · rw [if_neg he, decide_eq_false (Ne.symm he)]
      simpa using h.complete event
  order event := by
    rw [rulesFor_addRule]
    split
    · refine place_pairwise (h.order event) fun r hr => hindex r ?_
      exact (List.mem_filter.mp ((h.complete event).mem_iff.mp hr)).1
    · exact h.order event

/-- The induction is from the end, so that all rules before the last are there when it is placed. -/
theorem built_ordered (as : List Addition) : (built as).rules = added as ∧ (built as).Ordered := by
  induction as using List.reverseRecOn with
  | nil => exact ⟨rfl, fun _ => .refl _, fun _ => .nil⟩
  | append_singleton as a ih =>
      obtain ⟨hrules, hordered⟩ := ih
      have hbuilt : built (as ++ [a]) = (built as).add a := addAll_append empty as [a]
      rw [hbuilt, added_append, ← hrules]
      cases a with
      | rule d =>
          refine ⟨rfl, hordered.addRule (fun r hr => ?_) d⟩
          rw [hrules] at hr
          obtain ⟨p, hp, rfl⟩ := List.mem_map.mp hr
          have hlength : (built as).rules.length = (as.filterMap (·.rule?)).length := by
            simp [hrules, added]
          rw [hlength]
          simpa [Rule.numbered] using List.snd_lt_of_mem_zipIdx hp
      | function f =>
          have hkept := (built as).rules_addFunctions [f]
          refine ⟨hkept.trans (List.append_nil _).symm, hordered.congr hkept ?_⟩
          exact (built as).rulesFor_addFunctions [f]
      | constant name v =>
          have hkept := (built as).rules_addConstants [(name, v)]
          refine ⟨hkept.trans (List.append_nil _).symm, hordered.congr hkept ?_⟩
          exact (built as).rulesFor_addConstants [(name, v)]

def Built (s : RuleSet) : Prop := ∃ as, s = built as

theorem Built.addAll {s : RuleSet} (h : s.Built) (as : List Addition) : (s.addAll as).Built := by
  obtain ⟨bs, rfl⟩ := h
  exact ⟨bs ++ as, (addAll_append empty bs as).symm⟩

theorem addRules_eq (s : RuleSet) (ds : List RuleDecl) :
    s.addRules ds = s.addAll (ds.map .rule) := by
  rw [addAll, List.foldl_map]
  rfl

theorem addFunctions_eq (s : RuleSet) (fs : List FunctionDecl) :
    (s.addFunctions fs).2 = s.addAll (fs.map .function) := by
  induction fs generalizing s with
  | nil => rfl
  | cons f fs ih => exact ih (s.addFunction f).2

theorem addConstants_eq (s : RuleSet) (constants : Fields Value) :
    s.addConstants constants = s.addAll (constants.map fun p => .constant p.1 p.2) := by
  rw [addAll, List.foldl_map]
  rfl

/-- A module adds its rules, its functions and its constants. -/
theorem Built.withModule {s : RuleSet} (h : s.Built) (m : Module) (ds : List RuleDecl) :
    (s.withModule m ds).Built := by
  rw [RuleSet.withModule, addConstants_eq, addFunctions_eq, addRules_eq]
  exact ((h.addAll _).addAll _).addAll _

/-- However rules are added, an event triggers exactly those that were added for it, each once, by
descending priority and those of one priority in the order in which they were added. -/
theorem rulesFor_ordered (as : List Addition) (event : String) :
    ((built as).rulesFor event).Perm ((added as).filter (·.event = event)) ∧
      ((built as).rulesFor event).Pairwise Rule.Before := by
  obtain ⟨hrules, hordered⟩ := built_ordered as
  exact ⟨hrules ▸ hordered.complete event, hordered.order event⟩

end RuleSet

theorem Content.merge_built {c : Content} (h : c.rules.Built) (m : Module)
    (options : MergeOptions) : (final (merge m options) c).rules.Built := by
  rcases final_merge m options c with ⟨-, hf⟩ | ⟨changes, -, hf⟩
  · rw [hf]
    exact h
  · rw [hf]
    exact h.withModule m _

theorem Engine.built_moving : Moving fun e f => e.rules.Built → f.rules.Built where
  trans h h' := h' ∘ h
  keeps h := h.rules ▸ id
  perform e r hr h := by
    cases r with
    | install m =>
        rw [Engine.perform, Engine.install, final_onContent, Content.final_install]
        exact h.withModule m _
    | merge m options =>
        rw [Engine.perform, Engine.merge, final_onContent]
        exact Content.merge_built h m options
    | spawnAll ds =>
        rw [Engine.perform, Engine.spawnAll, final_onContent, Content.final_onWorld]
        exact h
    | schedule | cancel | arm | disarm | setTracing | step | process =>
        rw [(e.perform_keeps ?_).rules]
        · exact h
        · exact trivial
    | setWatchdog d => exact e.disarmWatchdog_keeps.rules ▸ h
    | modifyWorld f => exact hr.elim
    | reset => exact h
    | clear => exact ⟨[], rfl⟩
  world _ _ := id

theorem Simulation.Reachable.rules_built {s : Simulation} (h : s.Reachable) :
    s.engine.rules.Built := by
  induction h with
  | new config => exact ⟨[], rfl⟩
  | operation o _ ih => exact operate_moves Engine.built_moving _ o ih

end RuleSim
