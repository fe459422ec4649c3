import Mathlib.Data.Nat.Log
import Mathlib.Order.Compare
import RuleSim.Number.Binary64

namespace RuleSim.Binary64

theorem numLt_iff (x y : Binary64) :
    x.numLt y = true ↔ x.isNaN = false ∧ y.isNaN = false ∧ x.rank < y.rank := by
  unfold numLt compare?
  cases x.isNaN <;> cases y.isNaN <;> simp [compare_lt_iff_lt]

theorem numEq_iff (x y : Binary64) :
    x.numEq y = true ↔ x.isNaN = false ∧ y.isNaN = false ∧ x.rank = y.rank := by
  unfold numEq compare?
  cases x.isNaN <;> cases y.isNaN <;> simp

theorem numLe_iff (x y : Binary64) :
    x.numLe y = true ↔ x.isNaN = false ∧ y.isNaN = false ∧ x.rank ≤ y.rank := by
  rw [numLe, Bool.or_eq_true, numLt_iff, numEq_iff]
  constructor
  · rintro (⟨hx, hy, h⟩ | ⟨hx, hy, h⟩)
    · exact ⟨hx, hy, h.le⟩
    · exact ⟨hx, hy, h.le⟩
  · rintro ⟨hx, hy, h⟩
    rcases h.lt_or_eq with h | h
    · exact .inl ⟨hx, hy, h⟩
    · exact .inr ⟨hx, hy, h⟩

theorem numLt_iff_compare? {x y : Binary64} : x.numLt y = true ↔ x.compare? y = some .lt :=
  beq_iff_eq

theorem compare?_swap (x y : Binary64) : (x.compare? y).map Ordering.swap = y.compare? x := by
  rw [compare?, compare?, Bool.or_comm]
  split
  · rfl
  · exact congrArg some Std.OrientedOrd.eq_swap.symm

section Trans

variable {x y z : Binary64}

theorem numLt_irrefl (x : Binary64) : ¬ x.numLt x = true := by
  rw [numLt_iff]
  exact fun h => lt_irrefl _ h.2.2

theorem numLe_of_numLt (h : x.numLt y = true) : x.numLe y = true := by
  rw [numLe, h, Bool.true_or]

theorem numLt_of_numLe_of_numLt (h : x.numLe y = true) (h' : y.numLt z = true) :
    x.numLt z = true := by
  obtain ⟨hx, -, hxy⟩ := (numLe_iff _ _).mp h
  obtain ⟨-, hz, hyz⟩ := (numLt_iff _ _).mp h'
  exact (numLt_iff _ _).mpr ⟨hx, hz, hxy.trans_lt hyz⟩

theorem numLt_of_numLt_of_numLe (h : x.numLt y = true) (h' : y.numLe z = true) :
    x.numLt z = true := by
  obtain ⟨hx, -, hxy⟩ := (numLt_iff _ _).mp h
  obtain ⟨-, hz, hyz⟩ := (numLe_iff _ _).mp h'
  exact (numLt_iff _ _).mpr ⟨hx, hz, hxy.trans_le hyz⟩

end Trans

structure IsTime (x : Binary64) : Prop where
  not_negative : x.negative = false
  not_nan : x.isNaN = false

namespace IsTime

variable {x y : Binary64}

theorem magnitude_le (hx : IsTime x) : x.magnitude ≤ infMagnitude := by
  have h := hx.not_nan
  simpa [isNaN] using h

theorem rank_eq (hx : IsTime x) : x.rank = x.magnitude := by
  simp [rank, hx.not_negative]

theorem totalRank_eq (hx : IsTime x) : x.totalRank = x.magnitude := by
  simp [totalRank, hx.not_negative]

theorem bits_eq (hx : IsTime x) : x.bits.toNat = x.magnitude := by
  have h := hx.not_negative
  simp only [negative, decide_eq_false_iff_not, not_le] at h
  exact (Nat.mod_eq_of_lt h).symm

theorem eq_of_magnitude (hx : IsTime x) (hy : IsTime y) (h : x.magnitude = y.magnitude) :
    x = y := by
  rw [← hx.bits_eq, ← hy.bits_eq] at h
  cases x
  cases y
  exact congrArg Binary64.mk (UInt64.toNat_inj.mp h)

theorem numLt_iff (hx : IsTime x) (hy : IsTime y) :
    x.numLt y = true ↔ x.magnitude < y.magnitude := by
  rw [Binary64.numLt_iff, hx.rank_eq, hy.rank_eq]
  simp [hx.not_nan, hy.not_nan]

theorem numEq_iff (hx : IsTime x) (hy : IsTime y) :
    x.numEq y = true ↔ x.magnitude = y.magnitude := by
  rw [Binary64.numEq_iff, hx.rank_eq, hy.rank_eq]
  simp only [hx.not_nan, hy.not_nan, true_and]
  exact Int.ofNat_inj

theorem numLe_iff (hx : IsTime x) (hy : IsTime y) :
    x.numLe y = true ↔ x.magnitude ≤ y.magnitude := by
  rw [Binary64.numLe_iff, hx.rank_eq, hy.rank_eq]
  simp [hx.not_nan, hy.not_nan]

theorem of_numLt (hx : IsTime x) (h : x.numLt y = true) : IsTime y := by
  obtain ⟨-, hy, hr⟩ := (Binary64.numLt_iff x y).mp h
  refine ⟨?_, hy⟩
  by_contra hn
  rw [hx.rank_eq, rank, if_pos (Bool.not_eq_false _ ▸ hn)] at hr
  omega

end IsTime

theorem make_isTime {m : Nat} (hm : m ≤ infMagnitude) :
    IsTime (make false m) ∧ (make false m).magnitude = m := by
  have hs : m < signBit := lt_of_le_of_lt hm (by decide)
  have hb : (make false m).bits.toNat = m := by
    simp only [make, Bool.false_eq_true, if_false, Nat.add_zero, Nat.toUInt64_eq,
      UInt64.toNat_ofNat']
    exact Nat.mod_eq_of_lt (hs.trans (by decide))
  have hg : (make false m).magnitude = m := by
    rw [magnitude, hb]
    exact Nat.mod_eq_of_lt hs
  refine ⟨⟨?_, ?_⟩, hg⟩
  · simpa [negative, hb] using hs
  · simpa [isNaN, hg] using hm

theorem zero_isTime : IsTime zero := (make_isTime (Nat.zero_le _)).1

theorem floorMagnitude_small {n : Nat} (hn : n < 2 ^ 52) : floorMagnitude n = n := if_pos hn

/-- The exponent of a normal size is the excess of its logarithm. -/
theorem floorMagnitude_normal {n : Nat} (hn : 2 ^ 52 ≤ n) :
    floorMagnitude n = (n.log2 - 52) * 2 ^ 52 + n / 2 ^ (n.log2 - 52) ∧
      2 ^ 52 ≤ n / 2 ^ (n.log2 - 52) ∧ n / 2 ^ (n.log2 - 52) < 2 ^ 53 := by
  have h0 : n ≠ 0 := by omega
  have hl : 52 ≤ n.log2 := (Nat.le_log2 h0).mpr hn
  have hlo : 2 ^ 52 ≤ n / 2 ^ (n.log2 - 52) := by
    rw [Nat.le_div_iff_mul_le (Nat.two_pow_pos _), ← Nat.pow_add, Nat.add_sub_cancel' hl]
    exact Nat.log2_self_le h0
  have hhi : n / 2 ^ (n.log2 - 52) < 2 ^ 53 := by
    rw [Nat.div_lt_iff_lt_mul (Nat.two_pow_pos _), ← Nat.pow_add]
    calc n < 2 ^ (n.log2 + 1) := Nat.lt_log2_self
      _ = 2 ^ (53 + (n.log2 - 52)) := by congr 1; omega
  refine ⟨?_, hlo, hhi⟩
  have he : n.log2 - 51 - 1 = n.log2 - 52 := by omega
  simp only [floorMagnitude, Nat.not_lt.mpr hn, if_false, he]
  have hs : n.log2 - 51 = n.log2 - 52 + 1 := by omega
  rw [hs, Nat.succ_mul]
  omega

theorem floorMagnitude_mono {n k : Nat} (h : n ≤ k) : floorMagnitude n ≤ floorMagnitude k := by
  by_cases hn : n < 2 ^ 52
  · by_cases hk : k < 2 ^ 52
    · rwa [floorMagnitude_small hn, floorMagnitude_small hk]
    · obtain ⟨he, hlo, -⟩ := floorMagnitude_normal (Nat.not_lt.mp hk)
      have hf := floorMagnitude_small hn
      omega
  · have hn' : 2 ^ 52 ≤ n := Nat.not_lt.mp hn
    obtain ⟨hen, -, hin⟩ := floorMagnitude_normal hn'
    obtain ⟨hek, hlk, -⟩ := floorMagnitude_normal (hn'.trans h)
    have hlog : n.log2 ≤ k.log2 := by
      rw [Nat.le_log2 (by omega)]
      exact (Nat.log2_self_le (by omega)).trans h
    rcases hlog.lt_or_eq with hlt | heq
    · have hl : 52 ≤ n.log2 := (Nat.le_log2 (by omega)).mpr hn'
      have hm : (n.log2 - 52 + 1) * 2 ^ 52 ≤ (k.log2 - 52) * 2 ^ 52 :=
        Nat.mul_le_mul_right _ (by omega)
      rw [Nat.succ_mul] at hm
      omega
    · have hd : n / 2 ^ (n.log2 - 52) ≤ k / 2 ^ (k.log2 - 52) := by
        rw [heq]
        exact Nat.div_le_div_right h
      rw [heq] at hen hd
      omega

theorem floorMagnitude_units (m : Nat) : floorMagnitude (units m) = m := by
  by_cases h : m / 2 ^ 52 = 0
  · have hm : m < 2 ^ 52 := by omega
    rw [units, if_pos h, floorMagnitude_small hm]
  · have hu : units m = (2 ^ 52 + m % 2 ^ 52) * 2 ^ (m / 2 ^ 52 - 1) := if_neg h
    have hlog : (units m).log2 = 52 + (m / 2 ^ 52 - 1) := by
      rw [hu, Nat.log2_eq_iff (Nat.mul_pos (by omega) (Nat.two_pow_pos _)).ne']
      constructor
      · rw [Nat.pow_add]
        exact Nat.mul_le_mul_right _ (by omega)
      · rw [show 52 + (m / 2 ^ 52 - 1) + 1 = 53 + (m / 2 ^ 52 - 1) by omega, Nat.pow_add]
        exact Nat.mul_lt_mul_of_pos_right (by omega) (Nat.two_pow_pos _)
    have hle : 2 ^ 52 ≤ units m := by
      rw [hu]
      exact (Nat.le_add_right _ _).trans (Nat.le_mul_of_pos_right _ (Nat.two_pow_pos _))
    rw [(floorMagnitude_normal hle).1, hlog, Nat.add_sub_cancel_left, hu,
      Nat.mul_div_cancel _ (Nat.two_pow_pos _)]
    have hm := Nat.div_add_mod m (2 ^ 52)
    have hs : (m / 2 ^ 52 - 1) * 2 ^ 52 + 2 ^ 52 = 2 ^ 52 * (m / 2 ^ 52) := by
      omega
    omega

theorem nearest_le (num den : Nat) : nearest num den ≤ infMagnitude := Nat.min_le_right _ _

theorem le_nearest {m n : Nat} (hm : m ≤ infMagnitude) (h : units m ≤ n) : m ≤ nearest n 1 := by
  have hf : m ≤ floorMagnitude n := by
    rw [← floorMagnitude_units m]
    exact floorMagnitude_mono h
  simp only [nearest, Nat.div_one]
  refine le_min ?_ hm
  split <;> omega

theorem IsTime.add_eq {x y : Binary64} (hx : IsTime x) (hy : IsTime y) (hxi : x.isInf = false)
    (hyi : y.isInf = false) :
    x + y = make false (nearest (units x.magnitude + units y.magnitude) 1) := by
  change x.add y = _
  have hs : x.toUnits + y.toUnits = ((units x.magnitude + units y.magnitude : Nat) : Int) := by
    simp [toUnits, hx.not_negative, hy.not_negative]
  simp only [Binary64.add, hx.not_nan, hy.not_nan, hx.not_negative, hy.not_negative, hxi, hyi,
    Bool.false_eq_true, if_false, Bool.and_false, hs, ofUnits]
  split
  · next h0 =>
      have h0 : units x.magnitude + units y.magnitude = 0 := by exact_mod_cast h0
      rw [h0]
      rfl
  · rw [Int.natAbs_natCast, decide_eq_false (by omega)]

theorem IsTime.inf_add {x : Binary64} (hx : IsTime x) {y : Binary64} (hy : IsTime y)
    (hxi : x.isInf = true) : x + y = x := by
  change x.add y = x
  simp [Binary64.add, hx.not_nan, hy.not_nan, hx.not_negative, hy.not_negative, hxi]

/-- The sum of two points of time is one, and is not before either of them. -/
theorem IsTime.add {x y : Binary64} (hx : IsTime x) (hy : IsTime y) :
    IsTime (x + y) ∧ x.magnitude ≤ (x + y).magnitude ∧ y.magnitude ≤ (x + y).magnitude := by
  have hxl := hx.magnitude_le
  have hyl := hy.magnitude_le
  cases hxi : x.isInf with
  | true =>
      rw [hx.inf_add hy hxi]
      have hi : x.magnitude = infMagnitude := by simpa [isInf] using hxi
      exact ⟨hx, le_rfl, hi ▸ hyl⟩
  | false =>
      cases hyi : y.isInf with
      | true =>
          have hxy : x + y = y := by
            change x.add y = y
            simp [Binary64.add, hx.not_nan, hy.not_nan, hxi, hyi]
          have hi : y.magnitude = infMagnitude := by simpa [isInf] using hyi
          rw [hxy]
          exact ⟨hy, hi ▸ hxl, le_rfl⟩
      | false =>
          obtain ⟨ht, hm⟩ := make_isTime (nearest_le (units x.magnitude + units y.magnitude) 1)
          rw [hx.add_eq hy hxi hyi, hm]
          exact ⟨ht, le_nearest hxl (Nat.le_add_right _ _), le_nearest hyl (Nat.le_add_left _ _)⟩

end RuleSim.Binary64
