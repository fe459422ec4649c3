import RuleSim.Proofs.Content.Adopted

namespace RuleSim

section Positions

variable {os : List (Option Nat)} {k x : Nat}

theorem mem_positions : x ∈ (os.zipIdx k).map (fun p => p.1.getD p.2) ↔
    some x ∈ os ∨ (none, x) ∈ os.zipIdx k := by
  induction os generalizing k with
  | nil => simp
  | cons o os ih =>
      rw [List.zipIdx_cons, List.map_cons, List.mem_cons, List.mem_cons, List.mem_cons, ih]
      cases o with
      | none => simp [or_left_comm]
      | some n => simp [or_assoc]

/-- Positions keep distinct numbers distinct just if none of them is one of the numbers. -/
theorem nodup_positions_iff (h : (os.filterMap id).Nodup) :
    ((os.zipIdx k).map fun p => p.1.getD p.2).Nodup ↔
      ∀ x, (none, x) ∈ os.zipIdx k → some x ∉ os := by
  induction os generalizing k with
  | nil => simp
  | cons o os ih =>
      rw [List.zipIdx_cons, List.map_cons, List.nodup_cons, mem_positions]
      cases o with
      | none =>
          have hlater : (none, k) ∉ os.zipIdx (k + 1) := fun hk =>
            absurd (List.le_snd_of_mem_zipIdx hk) (Nat.not_succ_le_self k)
          simp [ih h, hlater]
      | some n =>
          have hn : some n ∉ os ∧ (os.filterMap id).Nodup := by simpa using h
          simp only [ih hn.2, Option.getD_some, hn.1, false_or, List.mem_cons, Prod.mk.injEq,
            reduceCtorEq, false_and, not_or, Option.some.injEq]
          constructor
          · rintro ⟨hfree, hall⟩ x hx
            exact ⟨fun heq => hfree (heq ▸ hx), hall x hx⟩
          · exact fun hall => ⟨fun hx => (hall n hx).1 rfl, fun x hx => (hall x hx).2⟩

end Positions

namespace RuleSet

def ids (s : RuleSet) : List Nat := s.rules.map (·.id)

theorem hasId_iff {s : RuleSet} {n : Nat} : s.hasId n = true ↔ n ∈ s.ids := by
  simp [hasId, ids]

theorem le_maxId {s : RuleSet} {n : Nat} (h : n ∈ s.ids) : ∃ k, s.maxId? = some k ∧ n ≤ k := by
  rw [maxId?, ← ids]
  cases hk : s.ids.max? with
  | none => exact absurd h (List.max?_eq_none_iff.mp hk ▸ List.not_mem_nil)
  | some k => exact ⟨k, rfl, (List.max?_eq_some_iff.mp hk).2 n h⟩

theorem ids_addRules (s : RuleSet) (ds : List RuleDecl) :
    (s.addRules ds).ids = s.ids ++ ((ds.map (·.id)).zipIdx s.rules.length).map
      fun p => p.1.getD p.2 := by
  induction ds generalizing s with
  | nil => exact (List.append_nil _).symm
  | cons d ds ih =>
      change ((s.addRule d).addRules ds).ids = _
      rw [ih]
      simp [ids, addRule]

theorem rules_addFunctions (s : RuleSet) (fs : List FunctionDecl) :
    (s.addFunctions fs).2.rules = s.rules := by
  induction fs generalizing s with
  | nil => rfl
  | cons f fs ih =>
      refine (ih (s.addFunction f).2).trans ?_
      rw [addFunction]
      split <;> rfl

theorem rules_addConstants (s : RuleSet) (constants : Fields Value) :
    (s.addConstants constants).rules = s.rules := by
  induction constants generalizing s with
  | nil => rfl
  | cons p constants ih =>
      refine (ih (s.addConstant p.1 p.2)).trans ?_
      rw [addConstant]
      split <;> rfl

theorem ids_withModule (s : RuleSet) (m : Module) (ds : List RuleDecl) :
    (s.withModule m ds).ids = (s.addRules ds).ids := by
  rw [withModule, ids, rules_addConstants, rules_addFunctions, ids]

/-- Rules whose declared identifiers are free and different leave all different just if none is put
at a position that is taken. -/
theorem nodup_addRules_iff {s : RuleSet} {ds : List RuleDecl} (hs : s.ids.Nodup)
    (hds : (ds.filterMap (·.id)).Nodup) (hfree : ∀ n ∈ ds.filterMap (·.id), n ∉ s.ids) :
    (s.addRules ds).ids.Nodup ↔ ∀ i d, ds[i]? = some d → d.id = none →
      s.rules.length + i ∉ s.ids ∧ s.rules.length + i ∉ ds.filterMap (·.id) := by
  have hdeclared (x : Nat) : some x ∈ ds.map (·.id) ↔ x ∈ ds.filterMap (·.id) := by simp
  have hposition (x : Nat) : (none, x) ∈ (ds.map (·.id)).zipIdx s.rules.length ↔
      ∃ i d, ds[i]? = some d ∧ d.id = none ∧ x = s.rules.length + i := by
    rw [List.mk_mem_zipIdx_iff_le_and_getElem?_sub, List.getElem?_map, Option.map_eq_some_iff]
    constructor
    · rintro ⟨hle, d, hd, hid⟩
      exact ⟨_, d, hd, hid, (Nat.add_sub_of_le hle).symm⟩
    · rintro ⟨i, d, hd, hid, rfl⟩
      exact ⟨Nat.le_add_right .., d, by rwa [Nat.add_sub_cancel_left], hid⟩
  rw [ids_addRules, List.nodup_append, nodup_positions_iff (by simpa using hds)]
  simp only [mem_positions, hdeclared, hposition]
  constructor
  · rintro ⟨-, hnone, hapart⟩ i d hd hid
    have hx : ∃ j e, ds[j]? = some e ∧ e.id = none ∧ s.rules.length + i = s.rules.length + j :=
      ⟨i, d, hd, hid, rfl⟩
    exact ⟨fun hmem => hapart _ hmem _ (.inr hx) rfl, hnone _ hx⟩
  · intro h
    refine ⟨hs, ?_, ?_⟩
    · rintro x ⟨i, d, hd, hid, rfl⟩
      exact (h i d hd hid).2
    · rintro x hx _ (hy | ⟨i, d, hd, hid, rfl⟩) rfl
      · exact hfree x hy hx
      · exact (h i d hd hid).1 hx

end RuleSet

namespace Content

open Merge

variable {m : Module} {options : MergeOptions} {c c' : Content} {report : MergeReport}

theorem merge_idOffset (h : merge m options c = .ok report c') :
    report.idOffset = idOffset m c.rules options.shiftIds := by
  rw [merge, get_bind] at h
  cases hp : planSchemas c.world options.overrideTypes m.components with
  | error e =>
      rw [hp] at h
      cases h
  | ok changes =>
      rw [hp] at h
      dsimp only at h
      rw [set_bind] at h
      obtain ⟨ids, d, -, hpure⟩ := bind_ok h
      cases hpure
      rfl

/-- Declared identifiers are moved out of the way of those that are loaded. -/
theorem shifted_not_loaded {rules : RuleSet} {n : Nat} (h : n ∈ m.rules.filterMap (·.id)) :
    n + idOffset m rules true ∉ rules.ids := by
  rw [idOffset, Bool.and_true]
  intro hmem
  by_cases hany : (m.rules.filterMap (·.id)).any rules.hasId = true
  · rw [if_pos hany] at hmem
    obtain ⟨k, hk, hle⟩ := RuleSet.le_maxId hmem
    rw [hk] at hle
    simp at hle
    omega
  · rw [if_neg hany] at hmem
    exact hany (List.any_eq_true.mpr ⟨n, h, RuleSet.hasId_iff.mpr hmem⟩)

/-- After a merge that shifts identifiers the rules have different ones, if they had before and the
module declares different ones, just if the position of no rule without one is taken: not by a
loaded rule, and not by what another rule of the module gets. -/
theorem merge_ids_distinct_iff (h : merge m options c = .ok report c')
    (hshift : options.shiftIds = true) (hloaded : c.rules.ids.Nodup)
    (hdeclared : (m.rules.filterMap (·.id)).Nodup) :
    c'.rules.ids.Nodup ↔ ∀ i d, m.rules[i]? = some d → d.id = none →
      c.rules.rules.length + i ∉ c.rules.ids ∧
        c.rules.rules.length + i ∉ (m.rules.filterMap (·.id)).map (· + report.idOffset) := by
  have hoffset := merge_idOffset h
  rw [hshift] at hoffset
  have hshifted : (m.rules.map (shift report.idOffset)).filterMap (·.id) =
      (m.rules.filterMap (·.id)).map (· + report.idOffset) := by
    rw [List.filterMap_map, List.map_filterMap]
    rfl
  rw [(merge_ok h).2.1, RuleSet.ids_withModule, hshift, ← hoffset,
    RuleSet.nodup_addRules_iff hloaded]
  · simp [hshifted, shift]
  · rw [hshifted]
    exact hdeclared.map (add_left_injective _)
  · rw [hshifted, hoffset]
    exact List.forall_mem_map.mpr fun n hn => shifted_not_loaded hn

def watch (id : Option Nat) : RuleDecl := { id, trigger := .onEvent "dusk", actions := [] }

def barracks (number : Nat) : Content := { rules := RuleSet.empty.addRule (watch (some number)) }

def recruits (numbers : List (Option Nat)) : Module where
  version := "1.0"
  name := "recruits"
  rules := numbers.map watch

theorem recruits_distinct : ∃ report c',
    merge (recruits [some 7, none]) ⟨false, true, false⟩ (barracks 7) = .ok report c' ∧
      report.idOffset = 8 ∧ (barracks 7).rules.ids.Nodup ∧
        ((recruits [some 7, none]).rules.filterMap (·.id)).Nodup ∧ c'.rules.ids.Nodup := by
  have hloaded : (barracks 7).rules.ids.Nodup := by decide
  have hdeclared : ((recruits [some 7, none]).rules.filterMap (·.id)).Nodup := by decide
  have hmerge : ∃ report c', report.idOffset = 8 ∧
      merge (recruits [some 7, none]) ⟨false, true, false⟩ (barracks 7) = .ok report c' :=
    ⟨_, _, rfl, rfl⟩
  obtain ⟨report, c', hoffset, hmerge⟩ := hmerge
  refine ⟨report, c', hmerge, hoffset, hloaded, hdeclared, ?_⟩
  apply (merge_ids_distinct_iff hmerge rfl hloaded hdeclared).mpr
  rw [hoffset]
  rintro (_ | _ | i) d hd hid
  · cases hd
    cases hid
  · decide
  · cases hd

/-- The recruit without a number stands where the number of the guard is. -/
theorem recruits_not_distinct : ¬ ∀ (m : Module) (options : MergeOptions) (c c' : Content)
    (report : MergeReport), merge m options c = .ok report c' → options.shiftIds = true →
    c.rules.ids.Nodup → (m.rules.filterMap (·.id)).Nodup → c'.rules.ids.Nodup := by
  intro h
  have hdistinct := h (recruits [none]) ⟨false, true, false⟩ (barracks 1) _ _ rfl rfl
    (by decide) (by decide)
  exact absurd hdistinct (by decide)

end Content

end RuleSim
