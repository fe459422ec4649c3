import RuleSim.Operator
import RuleSim.Proofs.Number.Rounding

namespace RuleSim

namespace Binary64

theorem negative_make {mag : Nat} (h : mag < signBit) (neg : Bool) :
    (make neg mag).negative = neg := by
  rw [negative, toNat_bits_make h]
  cases neg with
  | true => simp
  | false => simpa using h

theorem nearest_lt_signBit (num den : Nat) : nearest num den < signBit :=
  (nearest_le num den).trans_lt infMagnitude_lt_signBit

theorem ofInt_eq (n : Int) : ofInt n = make (n < 0) (nearest (n.natAbs * unitsPerOne) 1) := by
  have hpos : (0 : Int) < unitsPerOne := by exact_mod_cast unitsPerOne_pos
  rw [ofInt, ofUnits, Int.natAbs_mul, Int.natAbs_natCast]
  split
  · next h =>
      obtain rfl : n = 0 := (Int.mul_eq_zero.mp h).resolve_right hpos.ne'
      rw [Int.natAbs_zero, Nat.zero_mul]
      exact congrArg (make false) (nearest_units (Nat.zero_le _)).symm
  · have hsign : n * unitsPerOne < 0 ↔ n < 0 :=
      ⟨fun h => Int.not_le.mp fun hn => Int.not_le.mpr h (Int.mul_nonneg hn hpos.le),
        fun h => Int.mul_neg_of_neg_of_pos h hpos⟩
    rw [decide_eq_decide.mpr hsign]

theorem ofInt_not_nan (n : Int) : (ofInt n).isNaN = false := by
  rw [ofInt_eq, isNaN, magnitude_make (nearest_lt_signBit _ _)]
  exact decide_eq_false (Nat.not_lt.mpr (nearest_le _ _))

theorem rank_ofInt (n : Int) :
    (ofInt n).rank = if n < 0 then -(nearest (n.natAbs * unitsPerOne) 1 : Int)
      else nearest (n.natAbs * unitsPerOne) 1 := by
  rw [ofInt_eq, rank, negative_make (nearest_lt_signBit _ _),
    magnitude_make (nearest_lt_signBit _ _)]
  simp only [decide_eq_true_eq]

theorem rank_ofInt_mono {m n : Int} (h : m ≤ n) : (ofInt m).rank ≤ (ofInt n).rank := by
  have hsize {k l : Nat} (hkl : k ≤ l) :
      nearest (k * unitsPerOne) 1 ≤ nearest (l * unitsPerOne) 1 :=
    nearest_mono (Nat.mul_le_mul_right _ hkl)
  have hneg := hsize (k := n.natAbs) (l := m.natAbs)
  have hpos := hsize (k := m.natAbs) (l := n.natAbs)
  rw [rank_ofInt, rank_ofInt]
  split <;> split <;> omega

theorem numLe_ofInt {m n : Int} (h : m ≤ n) : (ofInt m).numLe (ofInt n) = true :=
  (numLe_iff _ _).mpr ⟨ofInt_not_nan _, ofInt_not_nan _, rank_ofInt_mono h⟩

theorem lt_of_numLt_ofInt {m n : Int} (h : (ofInt m).numLt (ofInt n) = true) : m < n := by
  by_contra hle
  exact numLt_irrefl _ (numLt_of_numLt_of_numLe h (numLe_ofInt (not_lt.mp hle)))

theorem nearest_whole_pos {k : Nat} (h : 0 < k) : 0 < nearest (k * unitsPerOne) 1 := by
  have hone : units 1 ≤ k * unitsPerOne := Nat.mul_pos h unitsPerOne_pos
  exact le_nearest (by decide) hone

/-- A whole number in binary is never a negative zero, so that equal ones are the same. -/
theorem numEq_ofInt (m n : Int) : (ofInt m).numEq (ofInt n) = true ↔ ofInt m = ofInt n := by
  rw [numEq_iff, rank_ofInt, rank_ofInt]
  simp only [ofInt_not_nan, true_and]
  constructor
  · intro h
    have hm := nearest_whole_pos (k := m.natAbs)
    have hn := nearest_whole_pos (k := n.natAbs)
    rw [ofInt_eq, ofInt_eq]
    have hsign : m < 0 ↔ n < 0 := by
      split at h <;> split at h <;> omega
    have hsize : nearest (m.natAbs * unitsPerOne) 1 = nearest (n.natAbs * unitsPerOne) 1 := by
      split at h <;> split at h <;> omega
    rw [hsize, decide_eq_decide.mpr hsign]
  · intro h
    rw [← rank_ofInt, ← rank_ofInt, h]

/-- Up to 2 ^ 53 each whole number is a number in binary. -/
theorem exists_units {k : Nat} (h : k ≤ 2 ^ 53) : ∃ m ≤ infMagnitude, units m = k * unitsPerOne := by
  have hinf : infMagnitude = 2047 * 2 ^ 52 := rfl
  rcases Nat.eq_zero_or_pos k with rfl | hpos
  · exact ⟨0, Nat.zero_le _, (Nat.zero_mul _).symm⟩
  · rcases h.lt_or_eq with h | rfl
    · have hlog : k.log2 ≤ 52 := Nat.lt_succ_iff.mp ((Nat.log2_lt hpos.ne').mpr h)
      obtain ⟨s, hs⟩ := Nat.exists_eq_add_of_le hlog
      have hlo : 2 ^ 52 ≤ k * 2 ^ s := by
        rw [hs, Nat.pow_add]
        exact Nat.mul_le_mul_right _ (Nat.log2_self_le hpos.ne')
      have hhi : k * 2 ^ s < 2 ^ 53 := by
        rw [show 53 = k.log2 + 1 + s by omega, Nat.pow_add]
        exact Nat.mul_lt_mul_of_pos_right Nat.lt_log2_self (Nat.two_pow_pos _)
      have hf : k * 2 ^ s - 2 ^ 52 < 2 ^ 52 := by omega
      refine ⟨(k.log2 + 1022 + 1) * 2 ^ 52 + (k * 2 ^ s - 2 ^ 52), by omega, ?_⟩
      have hexp : s + (k.log2 + 1022) = 1074 := by omega
      rw [units_normal _ hf, Nat.add_sub_cancel' hlo, Nat.mul_assoc, ← Nat.pow_add, hexp,
        unitsPerOne]
    · have htwo : (2 ^ 52 + 0) * 2 ^ 1 = 2 ^ 53 := by omega
      exact ⟨(1 + 1074 + 1) * 2 ^ 52 + 0, by omega, by rw [units_whole 1 (by decide), htwo]⟩

theorem nearest_whole_inj {k l : Nat} (hk : k ≤ 2 ^ 53) (hl : l ≤ 2 ^ 53)
    (h : nearest (k * unitsPerOne) 1 = nearest (l * unitsPerOne) 1) : k = l := by
  obtain ⟨m, hm, hmk⟩ := exists_units hk
  obtain ⟨n, hn, hnl⟩ := exists_units hl
  rw [← hmk, ← hnl, nearest_units hm, nearest_units hn] at h
  rw [h, hnl] at hmk
  exact (Nat.eq_of_mul_eq_mul_right unitsPerOne_pos hmk).symm

theorem ofInt_inj {m n : Int} (hm : m.natAbs ≤ 2 ^ 53) (hn : n.natAbs ≤ 2 ^ 53)
    (h : ofInt m = ofInt n) : m = n := by
  have hrank := congrArg rank h
  rw [rank_ofInt, rank_ofInt] at hrank
  have hm' := nearest_whole_pos (k := m.natAbs)
  have hn' := nearest_whole_pos (k := n.natAbs)
  have hsize : m.natAbs = n.natAbs := by
    apply nearest_whole_inj hm hn
    split at hrank <;> split at hrank <;> omega
  split at hrank <;> split at hrank <;> omega

end Binary64

namespace Value

inductive Numeric : Value → Prop
  | int (n : Int64) : Numeric (int n)
  | float {x : Binary64} (h : x.isNaN = false) : Numeric (float x)

def Yields (op : BinaryOp) (a b : Value) : Prop := binary op a b = .ok (bool true)

/-- One value is less than, equal to or greater than the other, and the other comparisons follow
from which it is. -/
structure Agree (a b : Value) : Prop where
  one : ∃! op, op ∈ [BinaryOp.lt, .eq, .gt] ∧ Yields op a b
  lte : Yields .lte a b ↔ Yields .lt a b ∨ Yields .eq a b
  gte : Yields .gte a b ↔ Yields .gt a b ∨ Yields .eq a b
  neq : Yields .neq a b ↔ ¬ Yields .eq a b

def Merged (a b : Value) : Prop :=
  ∃ m n : Int64, a = int m ∧ b = int n ∧ m ≠ n ∧ Binary64.ofInt m.toInt = Binary64.ofInt n.toInt

def told : Ordering → BinaryOp
  | .lt => .lt
  | .eq => .eq
  | .gt => .gt

section Ordered

variable {a b : Value} {o : Ordering}

theorem yields_eq : Yields .eq a b ↔ looseEq a b = true := by
  simp [Yields, binary]

theorem yields_neq : Yields .neq a b ↔ looseEq a b = false := by
  simp [Yields, binary]

theorem comparison_of_compare? {op : BinaryOp} (ho : a.compare? b = some o) (ha : a.isNull = false)
    (hb : b.isNull = false) : comparison op a b = .ok (bool (orderHolds op o)) := by
  rw [comparison, ha, hb, ho]
  rfl

/-- An order that is defined decides the four operators that ask for it. -/
theorem yields_of_compare? (ho : a.compare? b = some o) (ha : a.isNull = false)
    (hb : b.isNull = false) :
    (Yields .lt a b ↔ o = .lt) ∧ (Yields .gt a b ↔ o = .gt) ∧
      (Yields .lte a b ↔ o ≠ .gt) ∧ (Yields .gte a b ↔ o ≠ .lt) := by
  simp only [Yields, binary, comparison_of_compare? ho ha hb, Except.ok.injEq, bool.injEq]
  cases o <;> decide

/-- The comparisons agree just if both ways to see that two values are equal do. -/
theorem agree_iff_of_compare? (ho : a.compare? b = some o) (ha : a.isNull = false)
    (hb : b.isNull = false) : Agree a b ↔ (looseEq a b = true ↔ o = .eq) := by
  obtain ⟨hlt, hgt, hlte, hgte⟩ := yields_of_compare? ho ha hb
  rw [← yields_eq]
  constructor
  · intro h
    obtain ⟨op, ⟨hmem, hop⟩, hone⟩ := h.one
    simp only [List.mem_cons, List.not_mem_nil, or_false] at hmem hone
    constructor
    · intro heq
      obtain rfl := hone .eq ⟨.inr (.inl rfl), heq⟩
      cases o with
      | eq => rfl
      | lt => cases hone .lt ⟨.inl rfl, hlt.mpr rfl⟩
      | gt => cases hone .gt ⟨.inr (.inr rfl), hgt.mpr rfl⟩
    · rintro rfl
      rcases hmem with rfl | rfl | rfl
      · cases hlt.mp hop
      · exact hop
      · cases hgt.mp hop
  · intro h
    refine ⟨?_, ?_, ?_, ?_⟩
    · refine ⟨told o, ?_, ?_⟩
      · cases o <;> simp [told, hlt, hgt, h]
      · rintro op ⟨hmem, hop⟩
        simp only [List.mem_cons, List.not_mem_nil, or_false] at hmem
        rcases hmem with rfl | rfl | rfl
        · rw [hlt.mp hop, told]
        · rw [h.mp hop, told]
        · rw [hgt.mp hop, told]
    · rw [hlte, hlt, h]
      cases o <;> simp
    · rw [hgte, hgt, h]
      cases o <;> simp
    · rw [yields_neq, yields_eq, Bool.not_eq_true]

end Ordered

theorem Numeric.not_null {a : Value} (h : Numeric a) : a.isNull = false := by
  cases h <;> rfl

theorem not_merged_of_float {a b : Value} (h : (∃ x, a = float x) ∨ ∃ x, b = float x) :
    ¬ Merged a b := by
  rintro ⟨m, n, rfl, rfl, -⟩
  rcases h with ⟨x, h⟩ | ⟨x, h⟩ <;> cases h

/-- Binary numbers are equal in the one way just if they are in the other. -/
theorem numEq_iff_compare_eq {x y : Binary64} (hx : x.isNaN = false) (hy : y.isNaN = false) :
    x.compare? y = some (compare x.rank y.rank) ∧
      (x.numEq y = true ↔ compare x.rank y.rank = .eq) := by
  rw [Binary64.numEq_iff, Binary64.compare?, hx, hy]
  simp

/-- How two numbers are ordered, and when their equality agrees with that. -/
theorem compare?_of_numeric {a b : Value} (ha : Numeric a) (hb : Numeric b) :
    ∃ o, a.compare? b = some o ∧ ((looseEq a b = true ↔ o = .eq) ↔ ¬ Merged a b) := by
  have hbinary {x y : Binary64} (hx : x.isNaN = false) (hy : y.isNaN = false)
      (ho : a.compare? b = x.compare? y) (he : looseEq a b = x.numEq y)
      (hfloat : (∃ x, a = float x) ∨ ∃ x, b = float x) :
      ∃ o, a.compare? b = some o ∧ ((looseEq a b = true ↔ o = .eq) ↔ ¬ Merged a b) := by
    obtain ⟨hc, hiff⟩ := numEq_iff_compare_eq hx hy
    exact ⟨_, ho.trans hc, iff_of_true (he ▸ hiff) (not_merged_of_float hfloat)⟩
  cases ha with
  | int m =>
      cases hb with
      | int n =>
          have heq : looseEq (int m) (int n) = true ↔
              Binary64.ofInt m.toInt = Binary64.ofInt n.toInt := Binary64.numEq_ofInt _ _
          have hcmp : compare m.toInt n.toInt = .eq ↔ m = n :=
            compare_eq_iff_eq.trans Int64.toInt_inj
          refine ⟨_, rfl, ?_⟩
          rw [heq, hcmp]
          constructor
          · rintro h ⟨_, _, hm, hn, hne, hsame⟩
            cases hm
            cases hn
            exact hne (h.mp hsame)
          · intro h
            refine ⟨fun hsame => ?_, fun hmn => hmn ▸ rfl⟩
            by_contra hne
            exact h ⟨m, n, rfl, rfl, hne, hsame⟩
      | float hy => exact hbinary (Binary64.ofInt_not_nan _) hy rfl rfl (.inr ⟨_, rfl⟩)
  | float hx =>
      cases hb with
      | int n => exact hbinary hx (Binary64.ofInt_not_nan _) rfl rfl (.inl ⟨_, rfl⟩)
      | float hy => exact hbinary hx hy rfl rfl (.inl ⟨_, rfl⟩)

theorem not_merged_of_small {m n : Int64} (hm : m.toInt.natAbs ≤ 2 ^ 53)
    (hn : n.toInt.natAbs ≤ 2 ^ 53) : ¬ Merged (int m) (int n) := by
  rintro ⟨_, _, hm', hn', hne, h⟩
  cases hm'
  cases hn'
  exact hne (Int64.toInt_inj.mp (Binary64.ofInt_inj hm hn h))

/-- The comparisons of two numbers agree with each other just if these are not two different whole
numbers that are one number in binary, and up to 2 ^ 53 there are none of that kind. -/
theorem comparisons_agree_iff {a b : Value} (ha : Numeric a) (hb : Numeric b) :
    (Agree a b ↔ ¬ Merged a b) ∧
      (Merged a b → ∃ m n : Int64, a = int m ∧ b = int n ∧
        (2 ^ 53 < m.toInt.natAbs ∨ 2 ^ 53 < n.toInt.natAbs)) := by
  obtain ⟨o, ho, hiff⟩ := compare?_of_numeric ha hb
  refine ⟨(agree_iff_of_compare? ho ha.not_null hb.not_null).trans hiff, fun h => ?_⟩
  obtain ⟨m, n, rfl, rfl, -⟩ := id h
  refine ⟨m, n, rfl, rfl, ?_⟩
  by_contra hsmall
  rw [not_or, not_lt, not_lt] at hsmall
  exact not_merged_of_small hsmall.1 hsmall.2 h

/-- The first whole number that is none in binary, against the binary number that it rounds to. -/
theorem rounded_agrees :
    Numeric (int 9007199254740993) ∧ Numeric (float (Binary64.ofInt 9007199254740992)) ∧
      Agree (int 9007199254740993) (float (Binary64.ofInt 9007199254740992)) := by
  have ha : Numeric (int 9007199254740993) := .int _
  have hb : Numeric (float (Binary64.ofInt 9007199254740992)) :=
    .float (Binary64.ofInt_not_nan _)
  exact ⟨ha, hb, (comparisons_agree_iff ha hb).1.mpr (not_merged_of_float (.inr ⟨_, rfl⟩))⟩

/-- Of these two whole numbers the first is less than the second and equal to it. -/
theorem neighbours_disagree : Numeric (int 9007199254740992) ∧ Numeric (int 9007199254740993) ∧
    Yields .lt (int 9007199254740992) (int 9007199254740993) ∧
      Yields .eq (int 9007199254740992) (int 9007199254740993) ∧
        ¬ Agree (int 9007199254740992) (int 9007199254740993) := by
  have hlt : Yields .lt (int 9007199254740992) (int 9007199254740993) := by
    have ho : (int 9007199254740992).compare? (int 9007199254740993) = some .lt := by decide
    exact (yields_of_compare? ho rfl rfl).1.mpr rfl
  have heq : Yields .eq (int 9007199254740992) (int 9007199254740993) := by
    rw [yields_eq]
    decide +kernel
  refine ⟨.int _, .int _, hlt, heq, fun h => ?_⟩
  obtain ⟨op, -, hone⟩ := h.one
  cases (hone .lt ⟨by simp, hlt⟩).trans (hone .eq ⟨by simp, heq⟩).symm

end Value

end RuleSim
