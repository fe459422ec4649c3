import Mathlib.Data.String.Basic
import RuleSim.Builtin
import RuleSim.Proofs.Value.Comparison

namespace RuleSim

namespace Value

variable {a b c v w best : Value} {vs : List Value} {wanted : Ordering}

/-- Whole numbers are less exactly, numbers of any kind in binary, and other values among their own
kind. -/
inductive Less : Value → Value → Prop
  | bool {a b : Bool} (h : a < b) : Less (bool a) (bool b)
  | whole {m n : Int64} (h : m.toInt < n.toInt) : Less (int m) (int n)
  | binary {a b : Value} {x y : Binary64} (ha : a.asNumber? = some x) (hb : b.asNumber? = some y)
      (h : x.numLt y = true) : Less a b
  | str {s t : String} (h : s < t) : Less (str s) (str t)
  | entity {e f : EntityId} (h : e.toNat < f.toNat) : Less (entity e) (entity f)

theorem less_of_compare? (h : a.compare? b = some .lt) : Less a b := by
  fun_cases compare? a b with
  | case1 => cases h
  | case2 => exact .bool (compare_lt_iff_lt.mp (Option.some.inj h))
  | case3 => exact .whole (compare_lt_iff_lt.mp (Option.some.inj h))
  | case4 => exact .binary rfl rfl (Binary64.numLt_iff_compare?.mpr h)
  | case5 => exact .binary rfl rfl (Binary64.numLt_iff_compare?.mpr h)
  | case6 => exact .binary rfl rfl (Binary64.numLt_iff_compare?.mpr h)
  | case7 => exact .str (compare_lt_iff_lt.mp (Option.some.inj h))
  | case8 => exact .entity (compare_lt_iff_lt.mp (Option.some.inj h))
  | case9 => simp_all [compare?]

theorem Less.compare? (h : Less a b) : a.compare? b = some .lt := by
  cases h with
  | bool h => exact congrArg some (compare_lt_iff_lt.mpr h)
  | whole h => exact congrArg some (compare_lt_iff_lt.mpr h)
  | str h => exact congrArg some (compare_lt_iff_lt.mpr h)
  | entity h => exact congrArg some (compare_lt_iff_lt.mpr h)
  | binary ha hb h =>
      cases a <;> cases ha <;> cases b <;> cases hb
      · exact congrArg some (compare_lt_iff_lt.mpr (Binary64.lt_of_numLt_ofInt h))
      all_goals exact Binary64.numLt_iff_compare?.mp h

theorem compare?_swap (a b : Value) : (a.compare? b).map Ordering.swap = b.compare? a := by
  cases a with
  | null => cases b <;> rfl
  | bool a =>
      cases b with
      | bool b => exact congrArg some Std.OrientedOrd.eq_swap.symm
      | _ => rfl
  | int a =>
      cases b with
      | int b => exact congrArg some Std.OrientedOrd.eq_swap.symm
      | float y => exact Binary64.compare?_swap _ _
      | _ => rfl
  | float x =>
      cases b with
      | int b => exact Binary64.compare?_swap _ _
      | float y => exact Binary64.compare?_swap _ _
      | _ => rfl
  | str s =>
      cases b with
      | str t => exact congrArg some Std.OrientedOrd.eq_swap.symm
      | _ => rfl
  | entity e =>
      cases b with
      | entity f => exact congrArg some Std.OrientedOrd.eq_swap.symm
      | _ => rfl
  | list => cases b <;> rfl
  | map => cases b <;> rfl

theorem Less.irrefl (a : Value) : ¬ Less a a := by
  intro h
  cases h with
  | bool h => exact lt_irrefl _ h
  | whole h => exact lt_irrefl _ h
  | str h => exact lt_irrefl _ h
  | entity h => exact lt_irrefl _ h
  | binary ha ha' h =>
      obtain rfl := Option.some.inj (ha.symm.trans ha')
      exact Binary64.numLt_irrefl _ h

/-- Where whole numbers meet binary ones, the exact order weakens to the one in binary. -/
theorem Less.trans (h : Less a b) (h' : Less b c) : Less a c := by
  cases h with
  | bool h =>
      cases h' with
      | bool h' => exact .bool (h.trans h')
      | binary hb => cases hb
  | whole h =>
      cases h' with
      | whole h' => exact .whole (h.trans h')
      | binary hb hc h' =>
          cases hb
          exact .binary rfl hc (Binary64.numLt_of_numLe_of_numLt (Binary64.numLe_ofInt h.le) h')
  | str h =>
      cases h' with
      | str h' => exact .str (h.trans h')
      | binary hb => cases hb
  | entity h =>
      cases h' with
      | entity h' => exact .entity (h.trans h')
      | binary hb => cases hb
  | binary ha hb h =>
      cases h' with
      | whole h' =>
          cases hb
          exact .binary ha rfl (Binary64.numLt_of_numLt_of_numLe h (Binary64.numLe_ofInt h'.le))
      | binary hb' hc h' =>
          obtain rfl := Option.some.inj (hb.symm.trans hb')
          exact .binary ha hc (Binary64.numLt_of_numLt_of_numLe h (Binary64.numLe_of_numLt h'))
      | bool => cases hb
      | str => cases hb
      | entity => cases hb

instance : IsStrictOrder Value Less where
  irrefl := Less.irrefl
  trans _ _ _ := Less.trans

def Compares (o : Ordering) (a b : Value) : Prop := a.compare? b = some o

theorem compares_lt : Compares .lt = Less := by
  ext a b
  exact ⟨less_of_compare?, Less.compare?⟩

theorem compares_gt : Compares .gt = Function.swap Less := by
  rw [← compares_lt]
  ext a b
  change a.compare? b = some .gt ↔ b.compare? a = some .lt
  rw [← compare?_swap b a, Option.map_eq_some_iff]
  constructor
  · rintro ⟨o, h, ho⟩
    cases o with
    | lt => exact h
    | eq => cases ho
    | gt => cases ho
  · intro h
    exact ⟨.lt, h, rfl⟩

instance : IsStrictOrder Value (Compares .lt) := by
  rw [compares_lt]
  infer_instance

instance : IsStrictOrder Value (Compares .gt) := by
  rw [compares_gt]
  infer_instance

/-- A scan over some values, with the best one before them, can end at `v`. -/
structure Settled (wanted : Ordering) (best : Value) (vs : List Value) (v : Value) : Prop where
  mem : v ∈ best :: vs
  since : v = best ∨ Compares wanted v best
  unbeaten : ∀ w ∈ best :: vs, ¬ Compares wanted w v

theorem extremum_list {f : Builtin} {items : List Value} (h : ∀ v ∈ items, v.isNumber = true) :
    Builtin.extremum f wanted items = Builtin.extremum f wanted [list items] := by
  cases items with
  | nil => rfl
  | cons v vs =>
      have hv := h v List.mem_cons_self
      cases v with
      | list => cases hv
      | _ => rfl

section Scan

variable [IsStrictOrder Value (Compares wanted)]

theorem settled_nil : Settled wanted best [] best where
  mem := List.mem_singleton_self _
  since := .inl rfl
  unbeaten w hw := by
    rw [List.mem_singleton.mp hw]
    exact irrefl_of (Compares wanted) best

/-- What does not beat the best value does not beat what beats that one. -/
theorem Settled.passed (h : Settled wanted best vs v) (hw : ¬ Compares wanted w best) :
    Settled wanted best (w :: vs) v where
  mem := by
    rcases List.mem_cons.mp h.mem with rfl | hv
    · exact List.mem_cons_self
    · exact List.mem_cons_of_mem _ (List.mem_cons_of_mem _ hv)
  since := h.since
  unbeaten := by
    have hv : ¬ Compares wanted w v := by
      rcases h.since with rfl | hsince
      · exact hw
      · exact fun hwv => hw (trans_of (Compares wanted) hwv hsince)
    obtain ⟨hbest, hvs⟩ := List.forall_mem_cons.mp h.unbeaten
    exact List.forall_mem_cons.mpr ⟨hbest, List.forall_mem_cons.mpr ⟨hv, hvs⟩⟩

/-- A best value that is beaten does not beat what is found later. -/
theorem Settled.replaced (h : Settled wanted w vs v) (hw : Compares wanted w best) :
    Settled wanted best (w :: vs) v where
  mem := List.mem_cons_of_mem _ h.mem
  since := by
    rcases h.since with rfl | hsince
    · exact .inr hw
    · exact .inr (trans_of (Compares wanted) hsince hw)
  unbeaten := by
    refine List.forall_mem_cons.mpr ⟨fun hv => ?_, h.unbeaten⟩
    exact h.unbeaten w List.mem_cons_self (trans_of (Compares wanted) hw hv)

theorem extremumFrom_settled (h : ∀ v ∈ vs, v.isNumber = true) :
    ∃ v, Builtin.extremumFrom wanted best vs = .ok v ∧ Settled wanted best vs v := by
  induction vs generalizing best with
  | nil => exact ⟨best, rfl, settled_nil⟩
  | cons w vs ih =>
      obtain ⟨hw, hvs⟩ := List.forall_mem_cons.mp h
      rw [Builtin.extremumFrom, if_pos hw]
      split
      · next hcompares =>
          obtain ⟨v, hv, hsettled⟩ := ih hvs
          exact ⟨v, hv, hsettled.replaced hcompares⟩
      · next hcompares =>
          obtain ⟨v, hv, hsettled⟩ := ih hvs
          exact ⟨v, hv, hsettled.passed hcompares⟩

/-- NaN may be among the numbers: it beats none of them, and none beats it. -/
theorem extremum_unbeaten (f : Builtin) {items args : List Value} (hitems : items ≠ [])
    (hnumbers : ∀ v ∈ items, v.isNumber = true) (hargs : args = items ∨ args = [list items]) :
    ∃ v ∈ items, Builtin.extremum f wanted args = .ok v ∧
      ∀ w ∈ items, ¬ Compares wanted w v := by
  have hlist : Builtin.extremum f wanted args = Builtin.extremum f wanted [list items] := by
    rcases hargs with rfl | rfl
    · exact extremum_list hnumbers
    · rfl
  obtain ⟨best, vs, rfl⟩ := List.exists_cons_of_ne_nil hitems
  obtain ⟨hbest, hvs⟩ := List.forall_mem_cons.mp hnumbers
  obtain ⟨v, hv, hsettled⟩ : ∃ v, Builtin.extremumFrom wanted best vs = .ok v ∧
      Settled wanted best vs v := extremumFrom_settled hvs
  refine ⟨v, hsettled.mem, ?_, hsettled.unbeaten⟩
  rw [hlist, ← hv]
  exact if_pos hbest

end Scan

theorem Numeric.isNumber (h : Numeric a) : a.isNumber = true := by
  cases h <;> rfl

/-- Of two numbers the first is not less than the second, and so the second is at most the first. -/
theorem operators_of_not_less (ha : Numeric a) (hb : Numeric b) (h : ¬ Less a b) :
    binary .lt a b = .ok (bool false) ∧ binary .lte b a = .ok (bool true) := by
  obtain ⟨o, ho, -⟩ := compare?_of_numeric ha hb
  have hswap : b.compare? a = some o.swap := by
    rw [← compare?_swap, ho]
    rfl
  have hlt : binary .lt a b = _ := comparison_of_compare? ho ha.not_null hb.not_null
  have hlte : binary .lte b a = _ := comparison_of_compare? hswap hb.not_null ha.not_null
  rw [hlt, hlte]
  cases o with
  | lt => exact absurd (less_of_compare? ho) h
  | eq => exact ⟨rfl, rfl⟩
  | gt => exact ⟨rfl, rfl⟩

/-- Of numbers other than NaN, given in any mix and order, the least one is found, as it was given:
it is at most each of them. The greatest one is found likewise. -/
theorem extremum_chosen {items args : List Value} (hitems : items ≠ [])
    (hnumeric : ∀ v ∈ items, Numeric v) (hargs : args = items ∨ args = [list items])
    (random : Random) :
    (∃ v ∈ items, Builtin.min.call args random = .ok (v, random) ∧
      ∀ w ∈ items, binary .lt w v = .ok (bool false) ∧ binary .lte v w = .ok (bool true)) ∧
    ∃ v ∈ items, Builtin.max.call args random = .ok (v, random) ∧
      ∀ w ∈ items, binary .lt v w = .ok (bool false) ∧ binary .lte w v = .ok (bool true) := by
  have hnumbers : ∀ v ∈ items, v.isNumber = true := fun v hv => (hnumeric v hv).isNumber
  constructor
  · obtain ⟨v, hv, hok, hunbeaten⟩ : ∃ v ∈ items, Builtin.extremum .min .lt args = .ok v ∧
        ∀ w ∈ items, ¬ Compares .lt w v := extremum_unbeaten .min hitems hnumbers hargs
    rw [compares_lt] at hunbeaten
    refine ⟨v, hv, congrArg (Except.map (·, random)) hok, fun w hw => ?_⟩
    exact operators_of_not_less (hnumeric w hw) (hnumeric v hv) (hunbeaten w hw)
  · obtain ⟨v, hv, hok, hunbeaten⟩ : ∃ v ∈ items, Builtin.extremum .max .gt args = .ok v ∧
        ∀ w ∈ items, ¬ Compares .gt w v := extremum_unbeaten .max hitems hnumbers hargs
    rw [compares_gt] at hunbeaten
    refine ⟨v, hv, congrArg (Except.map (·, random)) hok, fun w hw => ?_⟩
    exact operators_of_not_less (hnumeric v hv) (hnumeric w hw) (hunbeaten w hw)

def crowd : List Value :=
  [int 9007199254740993, float (Binary64.ofInt 9007199254740992), int 9007199254740992]

theorem crowd_chosen : crowd ≠ [] ∧ (∀ v ∈ crowd, Numeric v) ∧
    Builtin.min.call [list crowd] ⟨0, 0⟩ = .ok (int 9007199254740992, ⟨0, 0⟩) ∧
    Builtin.max.call crowd ⟨0, 0⟩ = .ok (int 9007199254740993, ⟨0, 0⟩) ∧
    ∀ w ∈ crowd, binary .lt w (int 9007199254740992) = .ok (bool false) ∧
      binary .lt (int 9007199254740993) w = .ok (bool false) := by
  have hcrowd : crowd ≠ [] := List.cons_ne_nil _ _
  have hnumeric : ∀ v ∈ crowd, Numeric v := by
    simp only [crowd, List.forall_mem_cons]
    exact ⟨.int _, .float (Binary64.ofInt_not_nan _), .int _, List.forall_mem_nil _⟩
  have hequal : (float (Binary64.ofInt 9007199254740992)).compare? (int 9007199254740993) =
      some .eq := by decide +kernel
  have hless : (int 9007199254740992).compare? (int 9007199254740993) = some .lt := by decide
  have hmin : Builtin.min.call [list crowd] ⟨0, 0⟩ = .ok (int 9007199254740992, ⟨0, 0⟩) := by
    simp [Builtin.call, Builtin.callPure, Builtin.extremum, Builtin.extremumFrom, crowd, isNumber,
      hequal, hless, Except.map]
  have hmax : Builtin.max.call crowd ⟨0, 0⟩ = .ok (int 9007199254740993, ⟨0, 0⟩) := by
    simp [Builtin.call, Builtin.callPure, Builtin.extremum, Builtin.extremumFrom, crowd, isNumber,
      hequal, hless, Except.map]
  obtain ⟨⟨v, -, hv, hleast⟩, -⟩ := extremum_chosen hcrowd hnumeric (.inr rfl) ⟨0, 0⟩
  obtain ⟨-, u, -, hu, hgreatest⟩ := extremum_chosen hcrowd hnumeric (.inl rfl) ⟨0, 0⟩
  obtain rfl := congrArg Prod.fst (Except.ok.inj (hv.symm.trans hmin))
  obtain rfl := congrArg Prod.fst (Except.ok.inj (hu.symm.trans hmax))
  exact ⟨hcrowd, hnumeric, hmin, hmax, fun w hw => ⟨(hleast w hw).1, (hgreatest w hw).1⟩⟩

end Value

end RuleSim
