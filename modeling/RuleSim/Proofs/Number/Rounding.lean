import RuleSim.Proofs.Number.Time

namespace RuleSim.Binary64

theorem unitsPerOne_pos : 0 < unitsPerOne := Nat.two_pow_pos _

theorem units_lt_succ (m : Nat) : units m < units (m + 1) := by
  by_contra h
  have hmono := floorMagnitude_mono (Nat.not_lt.mp h)
  rw [floorMagnitude_units, floorMagnitude_units] at hmono
  omega

theorem units_strictMono : StrictMono units := strictMono_nat_of_lt_succ units_lt_succ

theorem units_normal (e : Nat) {f : Nat} (h : f < 2 ^ 52) :
    units ((e + 1) * 2 ^ 52 + f) = (2 ^ 52 + f) * 2 ^ e := by
  have hdiv : ((e + 1) * 2 ^ 52 + f) / 2 ^ 52 = e + 1 := by omega
  have hmod : ((e + 1) * 2 ^ 52 + f) % 2 ^ 52 = f := by omega
  rw [units, hdiv, hmod, if_neg e.succ_ne_zero, Nat.add_sub_cancel]

/-- The sizes of whole numbers of many digits. -/
theorem units_whole (e : Nat) {f : Nat} (h : f < 2 ^ 52) :
    units ((e + 1074 + 1) * 2 ^ 52 + f) = (2 ^ 52 + f) * 2 ^ e * unitsPerOne := by
  rw [units_normal _ h, Nat.pow_add, ← Nat.mul_assoc]
  rfl

theorem units_one : units ((1022 + 1) * 2 ^ 52 + 0) = unitsPerOne := by
  rw [units_normal 1022 (by decide), Nat.add_zero, ← Nat.pow_add]
  rfl

/-- What is not above a size does not round above it. -/
theorem nearest_le_of_le {num den m : Nat} (hden : 0 < den) (h : num ≤ units m * den) :
    nearest num den ≤ m := by
  have hfloor : floorMagnitude (num / den) ≤ m := by
    rw [← floorMagnitude_units m]
    apply floorMagnitude_mono
    exact Nat.div_le_of_le_mul (by rwa [Nat.mul_comm])
  refine (Nat.min_le_left _ _).trans ?_
  rcases hfloor.lt_or_eq with hlt | heq
  · split <;> omega
  · have hstep : units m * den < units (m + 1) * den :=
      Nat.mul_lt_mul_of_pos_right (units_lt_succ m) hden
    rw [heq, Nat.add_mul, if_pos (.inl (by omega))]

theorem nearest_units {m : Nat} (h : m ≤ infMagnitude) : nearest (units m) 1 = m :=
  le_antisymm (nearest_le_of_le Nat.one_pos (Nat.mul_one _).ge) (le_nearest h le_rfl)

theorem nearest_mono {n k : Nat} (h : n ≤ k) : nearest n 1 ≤ nearest k 1 := by
  simp only [nearest, Nat.div_one, Nat.mul_one]
  refine le_min ((Nat.min_le_left _ _).trans ?_) (Nat.min_le_right _ _)
  rcases (floorMagnitude_mono h).lt_or_eq with hlt | heq
  · split <;> split <;> omega
  · rw [heq]
    split <;> split <;> omega

def gap (mag : Nat) : Nat := units (mag + 1) - units mag

theorem units_add_gap (m : Nat) : units m + gap m = units (m + 1) :=
  Nat.add_sub_cancel' (units_lt_succ m).le

theorem units_floorMagnitude_le (n : Nat) : units (floorMagnitude n) ≤ n := by
  by_cases hn : n < 2 ^ 52
  · rw [floorMagnitude_small hn, units, if_pos (Nat.div_eq_of_lt hn)]
  · obtain ⟨he, hlo, hhi⟩ := floorMagnitude_normal (Nat.not_lt.mp hn)
    obtain ⟨f, hf⟩ := Nat.exists_eq_add_of_le hlo
    have hform : floorMagnitude n = (n.log2 - 52 + 1) * 2 ^ 52 + f := by
      rw [he, hf]
      omega
    rw [hform, units_normal _ (by omega), ← hf]
    exact Nat.div_mul_le_self _ _

theorem floorMagnitude_units_add {m u : Nat} (h : u < gap m) : floorMagnitude (units m + u) = m := by
  apply le_antisymm
  · by_contra hgt
    have hle : units (m + 1) ≤ units m + u :=
      (units_strictMono.monotone (Nat.not_le.mp hgt)).trans (units_floorMagnitude_le _)
    have hgap := units_add_gap m
    omega
  · calc m = floorMagnitude (units m) := (floorMagnitude_units m).symm
      _ ≤ floorMagnitude (units m + u) := floorMagnitude_mono (Nat.le_add_right _ _)

/-- Normal numbers of one exponent are evenly spaced. -/
theorem gap_normal (e : Nat) {f : Nat} (h : f < 2 ^ 52) : gap ((e + 1) * 2 ^ 52 + f) = 2 ^ e := by
  have hnext : units ((e + 1) * 2 ^ 52 + f + 1) = (2 ^ 52 + f + 1) * 2 ^ e := by
    by_cases hf : f + 1 < 2 ^ 52
    · rw [Nat.add_assoc, units_normal e hf, Nat.add_assoc]
    · obtain rfl : f = 2 ^ 52 - 1 := by omega
      have hfirst : (e + 1) * 2 ^ 52 + (2 ^ 52 - 1) + 1 = (e + 1 + 1) * 2 ^ 52 + 0 := by omega
      rw [hfirst, units_normal _ (by decide), Nat.pow_succ]
      omega
  rw [gap, hnext, units_normal e h, ← Nat.sub_mul, Nat.add_sub_cancel_left, Nat.one_mul]

theorem units_small {m : Nat} (h : m ≤ 2 ^ 52) : units m = m := by
  rcases h.lt_or_eq with h | rfl
  · rw [units, if_pos (Nat.div_eq_of_lt h)]
  · rfl

theorem gap_small {m : Nat} (h : m < 2 ^ 52) : gap m = 1 := by
  rw [gap, units_small h, units_small h.le]
  omega

/-- What lies above a number rounds to more if it is past the middle of the way to the next one. The
middle itself rounds to the even one of both. -/
theorem lt_nearest_add_iff {m u : Nat} (hm : m < infMagnitude) (hu : 0 < u) :
    m < nearest (units m + u) 1 ↔ gap m < 2 * u ∨ gap m = 2 * u ∧ m % 2 = 1 := by
  have hgap := units_add_gap m
  by_cases h : u < gap m
  · rw [nearest, Nat.div_one, floorMagnitude_units_add h, Nat.mul_one]
    split <;> omega
  · have hreach : m + 1 ≤ nearest (units m + u) 1 := le_nearest hm (by omega)
    omega

theorem toNat_bits_make {mag : Nat} (h : mag < signBit) (neg : Bool) :
    (make neg mag).bits.toNat = mag + if neg then signBit else 0 := by
  simp only [make, Nat.toUInt64_eq, UInt64.toNat_ofNat']
  apply Nat.mod_eq_of_lt
  have hsign : signBit = 2 ^ 63 := rfl
  split <;> omega

theorem magnitude_make {mag : Nat} (h : mag < signBit) (neg : Bool) :
    (make neg mag).magnitude = mag := by
  rw [magnitude, toNat_bits_make h]
  split
  · rw [Nat.add_mod_right, Nat.mod_eq_of_lt h]
  · rw [Nat.add_zero, Nat.mod_eq_of_lt h]

theorem infMagnitude_lt_signBit : infMagnitude < signBit := by decide

theorem isFinite_iff (x : Binary64) : x.isFinite = true ↔ x.magnitude < infMagnitude :=
  decide_eq_true_iff

theorem isFinite_make {mag : Nat} (h : mag < infMagnitude) (neg : Bool) :
    (make neg mag).isFinite = true := by
  rw [isFinite_iff, magnitude_make (h.trans infMagnitude_lt_signBit)]
  exact h

theorem isFinite_neg {x : Binary64} (h : x.isFinite = true) : (-x).isFinite = true :=
  isFinite_make ((isFinite_iff x).mp h) _

theorem isFinite.not_nan {x : Binary64} (h : x.isFinite = true) : x.isNaN = false := by
  have hx := (isFinite_iff x).mp h
  exact decide_eq_false (Nat.not_lt.mpr hx.le)

theorem isFinite.not_inf {x : Binary64} (h : x.isFinite = true) : x.isInf = false :=
  decide_eq_false ((isFinite_iff x).mp h).ne

/-- The second number is enough to leave the first one: it is more than half the way to the next
number, or just half of it where the tie goes to the next one. -/
structure Advances (x y : Binary64) : Prop where
  finite : x.isFinite = true
  reaches : gap x.magnitude < 2 * units y.magnitude ∨
    gap x.magnitude = 2 * units y.magnitude ∧ x.magnitude % 2 = 1

instance (x y : Binary64) : Decidable (Advances x y) :=
  decidable_of_iff (x.isFinite = true ∧ (gap x.magnitude < 2 * units y.magnitude ∨
      gap x.magnitude = 2 * units y.magnitude ∧ x.magnitude % 2 = 1))
    ⟨fun h => ⟨h.1, h.2⟩, fun h => ⟨h.1, h.2⟩⟩

theorem advances_of_lt {x y : Binary64} (hx : x.isFinite = true) (hy : 0 < y.magnitude)
    (h : units x.magnitude < 2 ^ 53 * units y.magnitude) : x.Advances y := by
  refine ⟨hx, .inl ?_⟩
  by_cases hs : x.magnitude < 2 ^ 52
  · have hu : 0 < units y.magnitude := units_strictMono.lt_iff_lt.mpr hy
    rw [gap_small hs]
    omega
  · obtain ⟨e, f, hf, hm⟩ : ∃ e f, f < 2 ^ 52 ∧ x.magnitude = (e + 1) * 2 ^ 52 + f :=
      ⟨x.magnitude / 2 ^ 52 - 1, x.magnitude % 2 ^ 52, Nat.mod_lt _ (by decide), by omega⟩
    rw [hm, units_normal e hf, Nat.add_mul] at h
    rw [hm, gap_normal e hf]
    omega

/-- A sum of points of time is later than the first just if the second advances it, and otherwise it
is the first again. -/
theorem IsTime.add_advances {x y : Binary64} (hx : IsTime x) (hy : IsTime y)
    (hfin : y.isFinite = true) (hpos : 0 < y.magnitude) :
    (x.numLt (x + y) = true ↔ x.Advances y) ∧ (¬ x.Advances y → x + y = x) := by
  obtain ⟨ht, hle, -⟩ := hx.add hy
  have hiff : x.numLt (x + y) = true ↔ x.Advances y := by
    rw [hx.numLt_iff ht]
    cases hxi : x.isInf with
    | true =>
        rw [hx.inf_add hy hxi]
        refine iff_of_false (lt_irrefl _) fun h => ?_
        cases hxi.symm.trans (isFinite.not_inf h.finite)
    | false =>
        have hm : x.magnitude < infMagnitude :=
          lt_of_le_of_ne hx.magnitude_le (by simpa [isInf] using hxi)
        have hu : 0 < units y.magnitude := units_strictMono.lt_iff_lt.mpr hpos
        rw [hx.add_eq hy hxi (isFinite.not_inf hfin), (make_isTime (nearest_le _ _)).2,
          lt_nearest_add_iff hm hu]
        exact ⟨fun h => ⟨(isFinite_iff x).mpr hm, h⟩, Advances.reaches⟩
  refine ⟨hiff, fun h => ?_⟩
  rw [← hiff, hx.numLt_iff ht] at h
  exact ht.eq_of_magnitude hx (le_antisymm (Nat.not_lt.mp h) hle)

/-- A whole number up to a large bound rounds to a finite magnitude. -/
theorem nearest_whole_lt {n : Nat} (h : n ≤ 10 ^ 308) :
    nearest (n * unitsPerOne) 1 < infMagnitude := by
  have hmax : n * unitsPerOne ≤ units ((971 + 1074 + 1) * 2 ^ 52 + (2 ^ 52 - 1)) * 1 := by
    have hbound : 10 ^ 308 ≤ (2 ^ 52 + (2 ^ 52 - 1)) * 2 ^ 971 := by decide +kernel
    rw [Nat.mul_one, units_whole 971 (by decide)]
    exact Nat.mul_le_mul_right _ (h.trans hbound)
  exact (nearest_le_of_le Nat.one_pos hmax).trans_lt (by decide)

theorem isFinite_ofInt {n : Nat} (h : n ≤ 10 ^ 308) : (ofInt n).isFinite = true := by
  rw [ofInt, ofUnits]
  split
  · exact isFinite_make (by decide) _
  · refine isFinite_make ?_ _
    have habs : ((n : Int) * unitsPerOne).natAbs = n * unitsPerOne := by
      rw [Int.natAbs_mul, Int.natAbs_natCast, Int.natAbs_natCast]
    rw [habs]
    exact nearest_whole_lt h

theorem power_magnitude (k : Nat) :
    (ofRatio (10 ^ k) 1).magnitude = nearest (10 ^ k * unitsPerOne) 1 :=
  magnitude_make ((nearest_le _ _).trans_lt infMagnitude_lt_signBit) _

theorem isFinite_power {k : Nat} (h : k ≤ 308) : (ofRatio (10 ^ k) 1).isFinite = true :=
  isFinite_make (nearest_whole_lt (Nat.pow_le_pow_right (by decide) h)) _

theorem unitsPerOne_le_power (k : Nat) :
    unitsPerOne ≤ units (ofRatio (10 ^ k) 1).magnitude := by
  rw [power_magnitude, ← units_one]
  apply units_strictMono.monotone
  apply le_nearest (by decide)
  rw [units_one]
  exact Nat.le_mul_of_pos_left _ (Nat.pow_pos (by decide))

theorem isFinite_mul {x y : Binary64} (hx : x.isFinite = true) (hy : y.isFinite = true)
    (h : (x * y).isInf = false) : (x * y).isFinite = true := by
  have hmul : x * y = make (x.negative != y.negative)
      (nearest (units x.magnitude * units y.magnitude) unitsPerOne) := by
    change x.mul y = _
    rw [mul, isFinite.not_nan hx, isFinite.not_nan hy, isFinite.not_inf hx, isFinite.not_inf hy]
    rfl
  have hle := nearest_le (units x.magnitude * units y.magnitude) unitsPerOne
  rw [hmul] at h ⊢
  rw [isInf, magnitude_make (hle.trans_lt infMagnitude_lt_signBit), decide_eq_false_iff_not] at h
  exact isFinite_make (lt_of_le_of_ne hle h) _

/-- To divide by a power of ten makes no number larger. -/
theorem isFinite_div_power {x : Binary64} (hx : x.isFinite = true) {k : Nat} (h : k ≤ 308) :
    (x / ofRatio (10 ^ k) 1).isFinite = true := by
  have hpower := isFinite_power h
  have hone := unitsPerOne_le_power k
  generalize ofRatio (10 ^ k) 1 = p at hpower hone
  have hpos : 0 < units p.magnitude := unitsPerOne_pos.trans_le hone
  have hnonzero : p.isZero = false := by
    refine decide_eq_false fun hz => ?_
    rw [hz] at hpos
    exact absurd hpos (by decide)
  have hdiv : x / p = make (x.negative != p.negative)
      (nearest (units x.magnitude * unitsPerOne) (units p.magnitude)) := by
    change x.div p = _
    rw [div, isFinite.not_nan hx, isFinite.not_nan hpower, isFinite.not_inf hx,
      isFinite.not_inf hpower, hnonzero]
    rfl
  rw [hdiv]
  refine isFinite_make (lt_of_le_of_lt (nearest_le_of_le hpos ?_) ((isFinite_iff x).mp hx)) _
  exact Nat.mul_le_mul_left _ hone

end RuleSim.Binary64
