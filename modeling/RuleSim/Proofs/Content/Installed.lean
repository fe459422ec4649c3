import RuleSim.Proofs.Content.Atomic

namespace RuleSim

def Rule.numbered (p : RuleDecl × Nat) : Rule := ⟨p.1.id.getD p.2, p.2, p.1⟩

namespace RuleSet

theorem rulesFor_addRule (s : RuleSet) (d : RuleDecl) (event : String) :
    (s.addRule d).rulesFor event =
      if event = (Rule.numbered (d, s.rules.length)).event then
        place (.numbered (d, s.rules.length)) (s.rulesFor event)
      else s.rulesFor event := by
  rw [addRule, rulesFor]
  dsimp only
  rw [Table.find?_put, ← Rule.numbered.eq_1 (d, s.rules.length)]
  split
  · next h => rw [h, Option.getD_some]
  · rfl

theorem mem_place {r s : Rule} {rules : List Rule} : s ∈ place r rules ↔ s = r ∨ s ∈ rules := by
  induction rules with
  | nil => simp [place]
  | cons t rest ih =>
      rw [place]
      split
      · rw [List.mem_cons, ih, List.mem_cons]
        tauto
      · rw [List.mem_cons]

theorem rulesFor_addRules {s : RuleSet} {decls : List RuleDecl} {event : String} {r : Rule}
    (h : r ∈ (s.addRules decls).rulesFor event) : r.decl ∈ decls ∨ r ∈ s.rulesFor event := by
  induction decls generalizing s with
  | nil => exact .inr h
  | cons d decls ih =>
      rcases ih (s := s.addRule d) h with h | h
      · exact .inl (List.mem_cons_of_mem _ h)
      · rw [rulesFor_addRule] at h
        split at h
        · rcases mem_place.mp h with rfl | h
          · exact .inl (List.mem_cons_self ..)
          · exact .inr h
        · exact .inr h

theorem rulesFor_addFunctions (s : RuleSet) (fs : List FunctionDecl) (event : String) :
    (s.addFunctions fs).2.rulesFor event = s.rulesFor event := by
  induction fs generalizing s with
  | nil => rfl
  | cons f fs ih =>
      rw [addFunctions]
      change ((s.addFunction f).2.addFunctions fs).2.rulesFor event = _
      rw [ih]
      unfold addFunction
      split <;> rfl

theorem rulesFor_addConstants (s : RuleSet) (constants : Fields Value) (event : String) :
    (s.addConstants constants).rulesFor event = s.rulesFor event := by
  induction constants generalizing s with
  | nil => rfl
  | cons p constants ih =>
      change ((s.addConstant p.1 p.2).addConstants constants).rulesFor event = _
      rw [ih]
      unfold addConstant
      split <;> rfl

def withModule (s : RuleSet) (m : Module) (rules : List RuleDecl) : RuleSet :=
  ((s.addRules rules).addFunctions m.functions).2.addConstants m.constants

theorem rulesFor_withModule {s : RuleSet} {m : Module} {rules : List RuleDecl} {event : String}
    {r : Rule} (h : r ∈ (s.withModule m rules).rulesFor event) :
    r.decl ∈ rules ∨ r ∈ s.rulesFor event := by
  rw [withModule, rulesFor_addConstants, rulesFor_addFunctions] at h
  exact rulesFor_addRules h

end RuleSet

namespace Content

theorem final_onWorld {α : Type} (x : EStateM Error World α) (c : Content) :
    final (onWorld x) c = { c with world := final x c.world } := by
  unfold final onWorld
  cases x c.world <;> rfl

theorem onWorld_ok {α : Type} {x : EStateM Error World α} {c c' : Content} {a : α}
    (h : onWorld x c = .ok a c') : ∃ w, x c.world = .ok a w ∧ c' = { c with world := w } := by
  unfold onWorld at h
  cases hs : x c.world with
  | ok b w =>
      rw [hs] at h
      cases h
      exact ⟨w, rfl, rfl⟩
  | error e w =>
      rw [hs] at h
      cases h

def declared (m : Module) (w : World) : World :=
  m.components.foldl (fun w d => w.register (.ofDecl d)) w

theorem final_install (m : Module) (c : Content) : final (install m) c =
    { world := final (World.spawnAll m.initialEntities) (declared m c.world)
      rules := c.rules.withModule m m.rules } := by
  unfold install
  rw [final_get_bind]
  dsimp only
  rw [final_set_bind, final_bind_pure, final_onWorld]
  rfl

/-- A merge that is refused for a conflict of types changes nothing. -/
theorem final_merge (m : Module) (options : MergeOptions) (c : Content) :
    (∃ e, Merge.planSchemas c.world options.overrideTypes m.components = .error e) ∧
        final (merge m options) c = c ∨
      ∃ changes, Merge.planSchemas c.world options.overrideTypes m.components = .ok changes ∧
        final (merge m options) c =
          { planned m options changes c with
            world := final (World.spawnAll (Merge.created m options c.world))
              (planned m options changes c).world } := by
  cases h : Merge.planSchemas c.world options.overrideTypes m.components with
  | error e => exact .inl ⟨⟨e, rfl⟩, final_of_error (merge_of_conflict h)⟩
  | ok changes =>
      refine .inr ⟨changes, rfl, ?_⟩
      unfold merge
      rw [final_get_bind, h]
      dsimp only
      rw [final_set_bind, final_bind_pure, final_onWorld]
      rfl

/-- The rules after a module is merged are those from before and those of the module, but for the
identifiers. -/
theorem rulesFor_merge {m : Module} {options : MergeOptions} {c : Content} {event : String}
    {r : Rule} (h : r ∈ (final (merge m options) c).rules.rulesFor event) :
    (∃ offset, ∃ d ∈ m.rules, r.decl = Merge.shift offset d) ∨ r ∈ c.rules.rulesFor event := by
  rcases final_merge m options c with ⟨-, hf⟩ | ⟨changes, -, hf⟩
  · rw [hf] at h
    exact .inr h
  · rw [hf] at h
    rcases RuleSet.rulesFor_withModule h with h | h
    · obtain ⟨d, hd, hr⟩ := List.mem_map.mp h
      exact .inl ⟨_, d, hd, hr.symm⟩
    · exact .inr h

end Content

end RuleSim
