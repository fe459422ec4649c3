import RuleSim.Proofs.Number.Rounding
import RuleSim.Value

namespace RuleSim

def EntityId.Exact (e : EntityId) : Prop := (Value.ofInt e.toNat).asEntity? = some e

instance : DecidablePred EntityId.Exact := fun e =>
  inferInstanceAs (Decidable ((Value.ofInt e.toNat).asEntity? = some e))

namespace EntityId

theorem toNat_lt (e : EntityId) : e.toNat < 2 ^ 64 := e.raw.toNat_lt

theorem ofNat_toNat (e : EntityId) : ofNat e.toNat = e := by
  rw [ofNat, toNat, Nat.toUInt64_eq, UInt64.ofNat_toNat]

theorem toNat_ofNat {n : Nat} (h : n < 2 ^ 64) : (ofNat n).toNat = n := by
  rw [ofNat, toNat, Nat.toUInt64_eq, UInt64.toNat_ofNat_of_lt' h]

end EntityId

namespace Value

open Binary64 (units unitsPerOne infMagnitude nearest make)

theorem clampTo_whole {x : Binary64} {k : Nat} (hx : x.isFinite = true)
    (hk : units x.magnitude = k * unitsPerOne) (hsign : x.negative = true → k = 0) :
    x.clampTo 0 (2 ^ 64 - 1) = (min k (2 ^ 64 - 1) : Nat) := by
  rw [Binary64.clampTo, Binary64.isFinite.not_nan hx, Binary64.isFinite.not_inf hx, hk,
    Binary64.floorSize, Nat.mul_div_cancel _ Binary64.unitsPerOne_pos]
  simp only [Bool.false_eq_true, if_false]
  cases hn : x.negative with
  | true =>
      rw [hsign hn]
      rfl
  | false =>
      simp only [Bool.false_eq_true, if_false]
      omega

theorem entityOfFloat?_make {m k : Nat} (hm : m < infMagnitude) (hk : units m = k * unitsPerOne) :
    entityOfFloat? (make false m) = some (.ofNat (min k (2 ^ 64 - 1))) := by
  obtain ⟨htime, hmag⟩ := Binary64.make_isTime hm.le
  have hfinite : (make false m).isFinite = true := Binary64.isFinite_make hm _
  have hle : Binary64.zero.numLe (make false m) = true := by
    rw [Binary64.zero_isTime.numLe_iff htime]
    exact Nat.zero_le _
  have hwhole : (make false m).isWhole = true := by
    rw [Binary64.isWhole, hfinite, hmag, hk, Nat.mul_mod_left]
    rfl
  have hclamp := clampTo_whole hfinite (hmag.symm ▸ hk) fun hn => by
    rw [htime.not_negative] at hn
    cases hn
  rw [entityOfFloat?, hle, hwhole, Binary64.toUInt64Clamped, hclamp]
  rfl

theorem ofInt_eq_make {k : Nat} (hpos : 0 < k) :
    Binary64.ofInt k = make false (nearest (k * unitsPerOne) 1) := by
  have habs : ((k : Int) * unitsPerOne).natAbs = k * unitsPerOne := by
    rw [Int.natAbs_mul, Int.natAbs_natCast, Int.natAbs_natCast]
  have hne : (k : Int) * unitsPerOne ≠ 0 := by
    exact_mod_cast (Nat.mul_pos hpos Binary64.unitsPerOne_pos).ne'
  have hsign : ¬ (k : Int) * unitsPerOne < 0 := by
    exact_mod_cast Nat.not_lt_zero _
  rw [Binary64.ofInt, Binary64.ofUnits, if_neg hne, habs, decide_eq_false hsign]

theorem ofInt_large {n : Nat} (h : 2 ^ 63 ≤ n) : ofInt n = float (Binary64.ofInt n) := by
  rw [ofInt, if_neg (by omega)]

end Value

namespace EntityId

open Binary64 (units unitsPerOne infMagnitude nearest make)

theorem exact_of_lt {e : EntityId} (h : e.toNat < 2 ^ 63) : e.Exact := by
  have hint : (Int64.ofInt e.toNat).toInt = e.toNat := Int64.toInt_ofInt_of_le (by omega) (by omega)
  rw [Exact, Value.ofInt, if_pos (by omega), Value.asEntity?, hint, if_pos (by omega),
    Int.toNat_natCast, ofNat_toNat]

theorem exact_of_units {e : EntityId} {m : Nat} (hm : m < infMagnitude)
    (hk : units m = e.toNat * unitsPerOne) : e.Exact := by
  by_cases h : e.toNat < 2 ^ 63
  · exact exact_of_lt h
  · have hlt := e.toNat_lt
    rw [Exact, Value.ofInt_large (by omega), Value.ofInt_eq_make (by omega), ← hk,
      Binary64.nearest_units hm.le, Value.asEntity?, Value.entityOfFloat?_make hm hk,
      min_eq_left (by omega), ofNat_toNat]

theorem exact_max : (ofNat (2 ^ 64 - 1)).Exact := by decide +kernel

/-- A reference that was read from a number is found again. -/
theorem exact_of_float {x : Binary64} {e : EntityId} (h : Value.entityOfFloat? x = some e) :
    e.Exact := by
  rw [Value.entityOfFloat?] at h
  split_ifs at h with hx
  obtain rfl := Option.some.inj h
  rw [Bool.and_eq_true, Binary64.numLe_iff, Binary64.isWhole, Bool.and_eq_true] at hx
  obtain ⟨⟨-, -, hrank⟩, hfinite, hwhole⟩ := hx
  have hm := (Binary64.isFinite_iff x).mp hfinite
  obtain ⟨k, hk⟩ := Nat.dvd_of_mod_eq_zero (beq_iff_eq.mp hwhole)
  rw [Nat.mul_comm] at hk
  have hclamp := Value.clampTo_whole hfinite hk fun hn => by
    have hmag : x.magnitude = 0 := by
      rw [Binary64.zero_isTime.rank_eq, Binary64.rank, if_pos hn] at hrank
      omega
    rw [hmag] at hk
    exact (Nat.mul_eq_zero.mp hk.symm).resolve_right Binary64.unitsPerOne_pos.ne'
  have he : (⟨x.toUInt64Clamped⟩ : EntityId) = ofNat (min k (2 ^ 64 - 1)) := by
    rw [Binary64.toUInt64Clamped, hclamp]
    rfl
  rw [he]
  by_cases hlt : k < 2 ^ 64
  · rw [min_eq_left (by omega)]
    exact exact_of_units hm (by rwa [toNat_ofNat hlt])
  · rw [min_eq_right (by omega)]
    exact exact_max

/-- Between the magnitudes of two neighbouring multiples of 2048 there is no other. -/
theorem units_step {q : Nat} (hlo : 2 ^ 52 ≤ q) (hhi : q < 2 ^ 53) :
    units ((11 + 1074 + 1) * 2 ^ 52 + (q - 2 ^ 52)) = q * 2048 * unitsPerOne ∧
      units ((11 + 1074 + 1) * 2 ^ 52 + (q - 2 ^ 52) + 1) = (q + 1) * 2048 * unitsPerOne := by
  have hq : 2 ^ 52 + (q - 2 ^ 52) = q := by omega
  refine ⟨by rw [Binary64.units_whole 11 (by omega), hq], ?_⟩
  by_cases htop : q + 1 < 2 ^ 53
  · have hnext : 2 ^ 52 + (q - 2 ^ 52 + 1) = q + 1 := by omega
    rw [Nat.add_assoc, Binary64.units_whole 11 (by omega), hnext]
  · have hnext : (11 + 1074 + 1) * 2 ^ 52 + (q - 2 ^ 52) + 1 = (12 + 1074 + 1) * 2 ^ 52 + 0 := by
      omega
    have htwo : (2 ^ 52 + 0) * 2 ^ 12 = (q + 1) * 2048 := by omega
    rw [hnext, Binary64.units_whole 12 (by decide), htwo]

theorem exact_of_dvd {e : EntityId} (h : 2048 ∣ e.toNat) : e.Exact := by
  by_cases hlt : e.toNat < 2 ^ 63
  · exact exact_of_lt hlt
  · have hmax := e.toNat_lt
    obtain ⟨q, hq⟩ := h
    have hstep := (units_step (q := q) (by omega) (by omega)).1
    refine exact_of_units ?_ (hstep.trans (by rw [hq, Nat.mul_comm 2048]))
    have hinf : infMagnitude = 2047 * 2 ^ 52 := rfl
    omega

/-- Beyond the signed range numbers are read in steps of 2048. -/
theorem exact_iff (e : EntityId) :
    e.Exact ↔ e.toNat < 2 ^ 63 ∨ 2048 ∣ e.toNat ∨ e.toNat = 2 ^ 64 - 1 := by
  constructor
  · intro he
    by_contra hno
    simp only [not_or] at hno
    obtain ⟨hlt, hdvd, hmax⟩ := hno
    have hbound := e.toNat_lt
    obtain ⟨hlow, hhigh⟩ := units_step (q := e.toNat / 2048) (by omega) (by omega)
    have hinf : infMagnitude = 2047 * 2 ^ 52 := rfl
    have hbelow := Binary64.le_nearest (n := e.toNat * unitsPerOne) (by omega)
      (hlow.le.trans (Nat.mul_le_mul_right _ (by omega)))
    have habove : nearest (e.toNat * unitsPerOne) 1 ≤ _ := Binary64.nearest_le_of_le Nat.one_pos
      ((Nat.mul_le_mul_right _ (by omega)).trans (hhigh.ge.trans (Nat.mul_one _).ge))
    rw [Exact, Value.ofInt_large (by omega), Value.ofInt_eq_make (by omega), Value.asEntity?] at he
    have hround {k r : Nat} (hr : nearest (e.toNat * unitsPerOne) 1 = r)
        (hinf : r < infMagnitude) (hk : units r = k * unitsPerOne) :
        min k (2 ^ 64 - 1) = e.toNat := by
      rw [hr, Value.entityOfFloat?_make hinf hk, Option.some.injEq] at he
      rw [← he, toNat_ofNat (by omega)]
    rcases Nat.lt_or_ge (nearest (e.toNat * unitsPerOne) 1)
        ((11 + 1074 + 1) * 2 ^ 52 + (e.toNat / 2048 - 2 ^ 52) + 1) with h | h
    · have := hround (by omega) (by omega) hlow
      omega
    · have := hround (by omega) (by omega) hhigh
      omega
  · rintro (h | h | h)
    · exact exact_of_lt h
    · exact exact_of_dvd h
    · have he : e = ofNat (2 ^ 64 - 1) := by rw [← ofNat_toNat e, h]
      rw [he]
      exact exact_max

end EntityId

end RuleSim
