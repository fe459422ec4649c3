import RuleSim.Builtin
import RuleSim.Proofs.Value.Comparison

namespace RuleSim

theorem Binary64.isZero_ofInt {n : Int} (h : n ≠ 0) : (ofInt n).isZero = false := by
  have hpos := nearest_whole_pos (Int.natAbs_pos.mpr h)
  rw [ofInt_eq, isZero, magnitude_make (nearest_lt_signBit _ _)]
  exact decide_eq_false hpos.ne'

namespace Value

variable {wanted : Int → Prop} {x : Binary64} {r : Result}

/-- The result is the wanted whole number, or the given number in binary where 64 bits hold no
number that is wanted. -/
structure WholeOr (x : Binary64) (wanted : Int → Prop) (r : Result) : Prop where
  whole (n : Int64) (h : wanted n.toInt) : r = .ok (int n)
  widened (h : ∀ n : Int64, ¬ wanted n.toInt) : r = .ok (float x)

theorem fits_iff {n : Int} : fits n = true ↔ ∃ m : Int64, m.toInt = n := by
  rw [fits, Bool.and_eq_true, decide_eq_true_iff, decide_eq_true_iff]
  constructor
  · rintro ⟨hlo, hhi⟩
    exact ⟨Int64.ofInt n, Int64.toInt_ofInt_of_le hlo hhi⟩
  · rintro ⟨m, rfl⟩
    exact ⟨Int64.le_toInt m, Int64.toInt_lt m⟩

theorem fits_toInt (n : Int64) : fits n.toInt = true := fits_iff.mpr ⟨n, rfl⟩

/-- If one whole number alone is wanted, it is given exactly when it fits. -/
theorem wholeOr_of_fits {m : Int} (hm : ∀ k, wanted k ↔ k = m)
    (hfits : fits m = true → r = .ok (int (Int64.ofInt m)))
    (hlarge : fits m = false → r = .ok (float x)) : WholeOr x wanted r where
  whole n h := by
    obtain rfl := (hm _).mp h
    rw [hfits (fits_toInt n), Int64.ofInt_toInt]
  widened h := by
    apply hlarge
    rw [Bool.eq_false_iff, ne_eq, fits_iff]
    rintro ⟨n, hn⟩
    exact h n ((hm _).mpr hn)

section Operands

variable {op : BinaryOp} {a b : Int64}

theorem wholeOr_exactly {m : Int} (hm : ∀ k, wanted k ↔ k = m)
    (hx : widened op a b = .ok (float x)) : WholeOr x wanted (exactly op a b m) := by
  apply wholeOr_of_fits hm
  · intro h
    rw [exactly, if_pos h]
  · intro h
    rw [exactly, h]
    exact hx

theorem toInt_ne_zero (h : b ≠ 0) : b.toInt ≠ 0 := fun hb => h (Int64.toInt_inj.mp hb)

theorem widened_divide (hb : b ≠ 0) :
    widened .divide a b = .ok (float (Binary64.ofInt a.toInt / Binary64.ofInt b.toInt)) := by
  rw [widened, floatArithmetic, Binary64.isZero_ofInt (toInt_ne_zero hb)]
  rfl

/-- A quotient is whole if nothing remains, and then it alone is one. -/
theorem quotient_iff {m n : Int} (hn : n ≠ 0) (q : Int) :
    m = q * n ↔ m.tmod n = 0 ∧ q = m.tdiv n := by
  constructor
  · rintro rfl
    exact ⟨Int.mul_tmod_left _ _, (Int.mul_tdiv_cancel _ hn).symm⟩
  · rintro ⟨hrem, rfl⟩
    exact (Int.tdiv_mul_cancel (Int.dvd_of_tmod_eq_zero hrem)).symm

theorem wholeOr_divide (hb : b ≠ 0) :
    WholeOr (Binary64.ofInt a.toInt / Binary64.ofInt b.toInt) (fun q => a.toInt = q * b.toInt)
      (binary .divide (int a) (int b)) := by
  have hquotient := quotient_iff (m := a.toInt) (toInt_ne_zero hb)
  change WholeOr _ _ (intArithmetic .divide a b)
  rw [intArithmetic, if_neg hb]
  by_cases hrem : a.toInt.tmod b.toInt = 0
  · rw [if_pos hrem]
    exact wholeOr_exactly (fun q => (hquotient q).trans (and_iff_right hrem)) (widened_divide hb)
  · rw [if_neg hrem]
    exact ⟨fun n h => absurd ((hquotient _).mp h).1 hrem, fun _ => widened_divide hb⟩

structure Remainder (a b r : Int) : Prop where
  quotient : ∃ q, a = q * b + r
  small : r.natAbs < b.natAbs
  nonneg (h : 0 ≤ a) : 0 ≤ r
  nonpos (h : a ≤ 0) : r ≤ 0

theorem remainder_tmod (a : Int) {b : Int} (hb : b ≠ 0) : Remainder a b (a.tmod b) where
  quotient := ⟨a.tdiv b, (Int.tdiv_mul_add_tmod a b).symm⟩
  small := by
    rw [Int.natAbs_tmod]
    exact Nat.mod_lt _ (Int.natAbs_pos.mpr hb)
  nonneg h := Int.tmod_nonneg b h
  nonpos h := by
    have hneg := Int.tmod_nonneg b (Int.neg_nonneg_of_nonpos h)
    rw [Int.neg_tmod] at hneg
    omega

theorem binary_modulo (hb : b ≠ 0) : ∃ r : Int64, binary .modulo (int a) (int b) = .ok (int r) ∧
    Remainder a.toInt b.toInt r.toInt := by
  have hrem := remainder_tmod a.toInt (toInt_ne_zero hb)
  obtain ⟨r, hr⟩ : ∃ r : Int64, r.toInt = a.toInt.tmod b.toInt := by
    have hlo := Int64.le_toInt b
    have hhi := Int64.toInt_lt b
    have hsmall := hrem.small
    rw [← fits_iff, fits, Bool.and_eq_true, decide_eq_true_iff, decide_eq_true_iff]
    omega
  refine ⟨r, ?_, hr ▸ hrem⟩
  change intArithmetic .modulo a b = _
  rw [intArithmetic, if_neg hb, ← hr, Int64.ofInt_toInt]

end Operands

theorem wholeOr_negate (a : Int64) :
    WholeOr (-(Binary64.ofInt a.toInt)) (· = -a.toInt) (negate (int a)) := by
  apply wholeOr_of_fits fun _ => Iff.rfl
  · intro h
    rw [negate, if_pos h, Int64.ofInt_neg, Int64.ofInt_toInt]
  · intro h
    rw [negate, h]
    rfl

theorem wholeOr_absolute (a : Int64) :
    WholeOr (Binary64.ofInt a.toInt).abs (· = a.toInt.natAbs) (Builtin.absolute (int a)) := by
  apply wholeOr_of_fits fun _ => Iff.rfl
  · intro h
    rw [Builtin.absolute, h]
    rfl
  · intro h
    rw [Builtin.absolute, h]
    rfl

theorem ne_least_iff (a : Int64) : a ≠ Int64.minValue ↔ a.toInt ≠ -2 ^ 63 :=
  not_congr Int64.toInt_inj.symm

/-- Of all whole numbers of 64 bits the least alone does not fit with the other sign. -/
theorem fits_iff_ne_least {a : Int64} {m : Int} (hsize : m.natAbs = a.toInt.natAbs)
    (hle : -a.toInt ≤ m) : (∃ n : Int64, n.toInt = m) ↔ a ≠ Int64.minValue := by
  have hlo := Int64.le_toInt a
  have hhi := Int64.toInt_lt a
  rw [← fits_iff, fits, Bool.and_eq_true, decide_eq_true_iff, decide_eq_true_iff, ne_least_iff]
  omega

theorem opposite_iff (a : Int64) : (∃ n : Int64, n.toInt = -a.toInt) ↔ a ≠ Int64.minValue :=
  fits_iff_ne_least (Int.natAbs_neg _) (Int.le_refl _)

theorem size_iff (a : Int64) : (∃ n : Int64, n.toInt = a.toInt.natAbs) ↔ a ≠ Int64.minValue :=
  fits_iff_ne_least (Int.natAbs_natCast _) (by omega)

/-- Whole numbers are added, subtracted, multiplied and divided to the exact whole number where one
of 64 bits is that, and else in binary. A remainder is always whole. Zero divides nothing. A whole
number is negated, and its size taken, exactly unless it is the least one. -/
theorem whole_or_widened (a b : Int64) :
    WholeOr (Binary64.ofInt a.toInt + Binary64.ofInt b.toInt) (· = a.toInt + b.toInt)
        (binary .add (int a) (int b)) ∧
      WholeOr (Binary64.ofInt a.toInt - Binary64.ofInt b.toInt) (· = a.toInt - b.toInt)
        (binary .subtract (int a) (int b)) ∧
      WholeOr (Binary64.ofInt a.toInt * Binary64.ofInt b.toInt) (· = a.toInt * b.toInt)
        (binary .multiply (int a) (int b)) ∧
      (b = 0 → binary .divide (int a) (int b) = .error .divisionByZero ∧
        binary .modulo (int a) (int b) = .error .divisionByZero) ∧
      (b ≠ 0 →
        WholeOr (Binary64.ofInt a.toInt / Binary64.ofInt b.toInt) (fun q => a.toInt = q * b.toInt)
          (binary .divide (int a) (int b)) ∧
        ∃ r : Int64, binary .modulo (int a) (int b) = .ok (int r) ∧
          Remainder a.toInt b.toInt r.toInt) ∧
      WholeOr (-Binary64.ofInt a.toInt) (· = -a.toInt) (negate (int a)) ∧
      (∃ r, WholeOr (Binary64.ofInt a.toInt).abs (· = a.toInt.natAbs) r ∧
        ∀ random, Builtin.abs.call [int a] random = r.map (·, random)) ∧
      ((∃ n : Int64, n.toInt = -a.toInt) ↔ a ≠ Int64.minValue) ∧
      ((∃ n : Int64, n.toInt = a.toInt.natAbs) ↔ a ≠ Int64.minValue) := by
  refine ⟨wholeOr_exactly (fun _ => Iff.rfl) rfl, wholeOr_exactly (fun _ => Iff.rfl) rfl,
    wholeOr_exactly (fun _ => Iff.rfl) rfl, ?zero, fun hb => ⟨wholeOr_divide hb, binary_modulo hb⟩,
    wholeOr_negate a, ⟨_, wholeOr_absolute a, fun _ => rfl⟩, opposite_iff a, size_iff a⟩
  case zero =>
    rintro rfl
    exact ⟨rfl, rfl⟩

/-- The least whole number divided by minus one, which is too large by one, and by zero. -/
theorem least_widened : (-1 : Int64) ≠ 0 ∧
    binary .divide (int Int64.minValue) (int (-1)) = .ok (float (Binary64.ofInt (2 ^ 63))) ∧
      binary .modulo (int Int64.minValue) (int (-1)) = .ok (int 0) ∧
        binary .modulo (int Int64.minValue) (int 0) = .error .divisionByZero := by
  have hone : (-1 : Int64) ≠ 0 := by decide
  have hleast : Int64.minValue.toInt = -2 ^ 63 := by decide
  have hunit : (-1 : Int64).toInt = -1 := by decide
  obtain ⟨-, -, -, -, h, -⟩ := whole_or_widened Int64.minValue (-1)
  obtain ⟨hquotient, r, hr, hrem⟩ := h hone
  obtain ⟨-, -, -, hzero, -⟩ := whole_or_widened Int64.minValue 0
  refine ⟨hone, ?_, ?_, (hzero rfl).2⟩
  · have hfloat : Binary64.ofInt Int64.minValue.toInt / Binary64.ofInt (-1 : Int64).toInt =
        Binary64.ofInt (2 ^ 63) := by decide +kernel
    rw [← hfloat]
    refine hquotient.widened fun n hn => ?_
    have hhi := Int64.toInt_lt n
    rw [hleast, hunit] at hn
    omega
  · have hsmall := hrem.small
    rw [hunit] at hsmall
    have hzero : r.toInt = (0 : Int64).toInt := by
      rw [Int64.toInt_zero]
      omega
    rw [hr, Int64.toInt_inj.mp hzero]

theorem floatArithmetic_ne_null (op : BinaryOp) (x y : Binary64) :
    floatArithmetic op x y ≠ .ok null := by
  unfold floatArithmetic
  split
  case h_4 | h_5 => split <;> exact nofun
  all_goals exact nofun

theorem exactly_ne_null (op : BinaryOp) (m n : Int64) (r : Int) : exactly op m n r ≠ .ok null := by
  unfold exactly
  split
  · exact nofun
  · exact floatArithmetic_ne_null _ _ _

theorem intArithmetic_ne_null (op : BinaryOp) (m n : Int64) : intArithmetic op m n ≠ .ok null := by
  unfold intArithmetic
  split
  case h_1 | h_2 | h_3 => exact exactly_ne_null _ _ _ _
  case h_4 =>
    split
    · exact nofun
    · split
      · exact exactly_ne_null _ _ _ _
      · exact floatArithmetic_ne_null _ _ _
  case h_5 => split <;> exact nofun
  case h_6 => exact nofun

theorem floatOperands_ne_null (op : BinaryOp) (a b : Value) : floatOperands op a b ≠ .ok null := by
  unfold floatOperands
  split
  · exact floatArithmetic_ne_null _ _ _
  · exact nofun

/-- Null comes of null, and of nothing else. -/
theorem arithmetic_eq_null_iff {op : BinaryOp} {a b : Value} :
    arithmetic op a b = .ok null ↔ a = null ∨ b = null := by
  unfold arithmetic
  split
  case h_1 | h_2 => simp
  case h_3 => simp [intArithmetic_ne_null]
  case h_4 ha => split <;> simp_all [floatOperands_ne_null]
  case h_5 ha hb => split <;> simp_all [floatOperands_ne_null]
  case h_6 => split <;> simp [floatOperands_ne_null]
  case h_7 => simp_all [floatOperands_ne_null]

end Value

end RuleSim
