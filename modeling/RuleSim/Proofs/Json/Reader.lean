import RuleSim.Proofs.Json.Tree
import RuleSim.Proofs.Number.Rounding

namespace RuleSim.Json

theorem scaled?_finite {x y : Binary64} {e : Int} {fuel : Nat} (hx : x.isFinite = true)
    (h : scaled? x e fuel = some y) : y.isFinite = true := by
  induction fuel generalizing x e with
  | zero =>
      obtain rfl := Option.some.inj h
      exact hx
  | succ fuel ih =>
      rw [scaled?] at h
      dsimp only at h
      split_ifs at h with hsmall hneg hinf hzero hinf
      · obtain rfl := Option.some.inj h
        have hnot : ¬ (x * Binary64.ofRatio (10 ^ e.natAbs) 1).isInf = true := fun hi =>
          hinf ⟨hneg, hi⟩
        exact Binary64.isFinite_mul hx (Binary64.isFinite_power hsmall) (Bool.eq_false_iff.mpr hnot)
      · obtain rfl := Option.some.inj h
        exact Binary64.isFinite_div_power hx hsmall
      · obtain rfl := Option.some.inj h
        exact hx
      · exact ih (Binary64.isFinite_div_power hx le_rfl) h

theorem appendDigits_lt {n : Nat} (h : n < 2 ^ 64) (cs : List Char) :
    (appendDigits n cs).1 < 2 ^ 64 := by
  induction cs generalizing n with
  | nil => exact h
  | cons c cs ih =>
      rw [appendDigits]
      split
      · next hlt => exact ih hlt
      · exact h

theorem significand_lt (t : NumberText) : t.significand.1 < 2 ^ 64 := by
  have hwhole := appendDigits_lt (Nat.two_pow_pos 64) t.whole
  rw [NumberText.significand]
  cases t.fraction with
  | none => exact hwhole
  | some fraction => exact appendDigits_lt hwhole fraction

theorem isFinite_ofInt {n : Nat} (h : n < 2 ^ 64) : (Binary64.ofInt n).isFinite = true :=
  Binary64.isFinite_ofInt (h.le.trans (by decide +kernel))

theorem binary?_finite {t : NumberText} {x : Binary64} (h : t.binary? = some x) :
    x.isFinite = true := by
  have hstart := isFinite_ofInt (significand_lt t)
  have hsigned {y : Binary64} (hy : y.isFinite = true) :
      (if t.negative then -y else y).isFinite = true := by
    split
    · exact Binary64.isFinite_neg hy
    · exact hy
  rw [NumberText.binary?] at h
  dsimp only at h
  cases hexp : t.exponent with
  | none =>
      simp only [hexp, Option.bind_eq_bind, Option.bind_eq_some_iff, Option.pure_def,
        Option.some.injEq] at h
      obtain ⟨y, hy, rfl⟩ := h
      exact hsigned (scaled?_finite hstart hy)
  | some p =>
      simp only [hexp] at h
      by_cases hlarge : maxExponent < digitsValue p.2
      · rw [if_pos hlarge] at h
        split at h
        · cases h
        · obtain rfl := Option.some.inj h
          exact hsigned (y := .zero) (by decide)
      · rw [if_neg hlarge] at h
        simp only [Option.bind_eq_bind, Option.bind_eq_some_iff, Option.pure_def,
          Option.some.injEq] at h
        obtain ⟨y, hy, rfl⟩ := h
        exact hsigned (scaled?_finite hstart hy)

theorem all_plain_float (x : Binary64) : (float x).all plain = x.isFinite := rfl

theorem leaf?_plain {t : NumberText} {j : Json} (h : t.leaf? = some j) :
    j.all plain = true ∧ j.depth = 0 := by
  have hlt := appendDigits_lt (Nat.two_pow_pos 64) t.whole
  rw [NumberText.leaf?] at h
  dsimp only at h
  split_ifs at h with hbinary hpositive hsmall
  · simp only [Option.bind_eq_bind, Option.bind_eq_some_iff, Option.pure_def,
      Option.some.injEq] at h
    obtain ⟨x, hx, rfl⟩ := h
    exact ⟨binary?_finite hx, rfl⟩
  · obtain rfl := Option.some.inj h
    refine ⟨?_, rfl⟩
    simp only [all, plain, narrow, Bool.and_eq_true, decide_eq_true_eq]
    omega
  · obtain rfl := Option.some.inj h
    refine ⟨?_, rfl⟩
    simp only [all, plain, narrow, Bool.and_eq_true, decide_eq_true_eq]
    omega
  · obtain rfl := Option.some.inj h
    rw [all_plain_float]
    exact ⟨Binary64.isFinite_neg (isFinite_ofInt hlt), rfl⟩

mutual

theorem tree?_plain (f : Form) {d : Nat} {j : Json} (h : f.tree? d = some j) :
    j.all plain = true ∧ j.depth ≤ d := by
  cases f with
  | null | bool =>
      obtain rfl := Option.some.inj h
      exact ⟨rfl, Nat.zero_le _⟩
  | number t =>
      obtain ⟨hplain, hdepth⟩ := leaf?_plain h
      exact ⟨hplain, hdepth ▸ Nat.zero_le _⟩
  | string pieces =>
      obtain ⟨s, -, rfl⟩ := Option.map_eq_some_iff.mp h
      exact ⟨rfl, Nat.zero_le _⟩
  | arr items =>
      rw [Form.tree?] at h
      split_ifs at h with hd
      obtain ⟨js, hjs, rfl⟩ := Option.map_eq_some_iff.mp h
      obtain ⟨d, rfl⟩ : ∃ k, d = k + 1 := ⟨d - 1, by omega⟩
      have hitems := items?_plain items hjs
      exact ⟨all_arr.mpr ⟨rfl, fun j hj => (hitems j hj).1⟩,
        depth_arr.mpr fun j hj => (hitems j hj).2⟩
  | obj entries =>
      rw [Form.tree?] at h
      split_ifs at h with hd
      obtain ⟨es, hes, rfl⟩ := Option.map_eq_some_iff.mp h
      obtain ⟨d, rfl⟩ : ∃ k, d = k + 1 := ⟨d - 1, by omega⟩
      have hentries := entries?_plain entries hes
      exact ⟨all_obj.mpr ⟨rfl, fun p hp => (hentries p hp).1⟩,
        depth_obj.mpr fun p hp => (hentries p hp).2⟩

theorem items?_plain (fs : List Form) {d : Nat} {js : List Json}
    (h : Form.items? d fs = some js) : ∀ j ∈ js, j.all plain = true ∧ j.depth ≤ d := by
  cases fs with
  | nil =>
      obtain rfl := Option.some.inj h
      exact nofun
  | cons f fs =>
      simp only [Form.items?, Option.bind_eq_bind, Option.bind_eq_some_iff, Option.pure_def,
        Option.some.injEq] at h
      obtain ⟨j, hj, js, hjs, rfl⟩ := h
      exact List.forall_mem_cons.mpr ⟨tree?_plain f hj, items?_plain fs hjs⟩

theorem entries?_plain (fs : List (List Piece × Form)) {d : Nat} {es : List (String × Json)}
    (h : Form.entries? d fs = some es) : ∀ p ∈ es, p.2.all plain = true ∧ p.2.depth ≤ d := by
  cases fs with
  | nil =>
      obtain rfl := Option.some.inj h
      exact nofun
  | cons p fs =>
      obtain ⟨k, f⟩ := p
      simp only [Form.entries?, Option.bind_eq_bind, Option.bind_eq_some_iff, Option.pure_def,
        Option.some.injEq] at h
      obtain ⟨k, -, j, hj, es, hes, rfl⟩ := h
      exact List.forall_mem_cons.mpr ⟨tree?_plain f hj, entries?_plain fs hes⟩

end

theorem parse?_plain {text : String} {j : Json} (h : parse? text = some j) :
    j.all plain = true ∧ j.all orderly = true ∧ j.depth ≤ Form.maxDepth := by
  obtain ⟨j, hj, rfl⟩ := Option.map_eq_some_iff.mp h
  obtain ⟨f, -, hf⟩ := Option.bind_eq_some_iff.mp hj
  obtain ⟨hplain, hdepth⟩ := tree?_plain f hf
  exact ⟨all_plain_sorted hplain, all_orderly_sorted j, depth_sorted hdepth⟩

end RuleSim.Json
