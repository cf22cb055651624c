import DuplexRpc.Proofs.Binary64.Ranks

/-!
How large the results of operations are. A result is found from the exact one by rounding, which
keeps the order; so a bound that is a magnitude itself holds of the result if it holds of the exact
one. A product with a factor between two powers of two lies between them again, or is infinite.
-/
namespace DuplexRpc

namespace FiniteBinary64

/-- No number below zero. The negative zero counts as zero. -/
def IsNonneg (v : FiniteBinary64) : Prop := v.negative = true → v.rank.val = 0

variable {v w : FiniteBinary64}

theorem IsNonneg.of_unsigned (h : v.negative = false) : v.IsNonneg :=
  fun hnegative => by cases h.symm.trans hnegative

theorem IsNonneg.signedUnits (hv : v.IsNonneg) : v.signedUnits = v.units := by
  unfold FiniteBinary64.signedUnits
  split
  next hnegative => simp [units, hv hnegative, Binary64.unitsOfRank]
  next => rfl

theorem signedUnits_nonneg_iff : 0 ≤ v.signedUnits ↔ v.IsNonneg := by
  constructor
  · intro h hnegative
    rw [signedUnits, if_pos hnegative] at h
    refine Nat.eq_zero_of_not_pos fun hpos => ?_
    have hunits : 0 < v.units := Nat.lt_of_le_of_lt (Nat.zero_le _)
      (Binary64.unitsOfRank_strictMono hpos)
    omega
  · intro h
    rw [h.signedUnits]
    exact Int.natCast_nonneg _

theorem IsNonneg.signedUnits_lt_iff (hv : v.IsNonneg) (hw : w.IsNonneg) :
    v.signedUnits < w.signedUnits ↔ v.rank.val < w.rank.val := by
  rw [hv.signedUnits, hw.signedUnits, Int.ofNat_lt]
  exact Binary64.unitsOfRank_strictMono.lt_iff_lt

end FiniteBinary64

namespace Binary64

variable {num den r s t : Nat} {negative : Bool} {x y : Binary64} {v w : FiniteBinary64}

theorem eq_of_finite? (h : x.finite? = some v) : x = .finite v := by
  cases x <;> cases h
  rfl

theorem ofRatio_of_lt (h : rankOfRatio num den < rankLimit) :
    ofRatio negative num den = .finite ⟨negative, ⟨rankOfRatio num den, h⟩⟩ := dif_pos h

theorem ofRatio_zero (hden : 0 < den) : ofRatio negative 0 den = .finite (.zero negative) := by
  have hrank : rankOfRatio 0 den = 0 := Nat.le_zero.1 (rankOfRatio_le hden (Nat.zero_le _))
  have hlt : rankOfRatio 0 den < rankLimit := Nat.lt_of_le_of_lt hrank.le (by decide)
  rw [ofRatio_of_lt hlt]
  simp only [hrank, FiniteBinary64.zero]

/-- A power of two is a double. -/
theorem exists_ofNat_two_pow {e : Nat} (he : e ≤ 1023) : ∃ v, ofNat (2 ^ e) = .finite v ∧
    v.negative = false ∧ v.rank.val = powerRank e := by
  have hrank : rankOfRatio (2 ^ e * one) 1 = powerRank e := by
    rw [← unitsOfRank_powerRank, ← Nat.mul_one (unitsOfRank _), rankOfRatio_unitsOfRank Nat.one_pos]
  have hlt : rankOfRatio (2 ^ e * one) 1 < rankLimit := hrank ▸ powerRank_lt he
  exact ⟨_, ofRatio_of_lt hlt, rfl, hrank⟩

theorem exists_ofNat_one :
    ∃ v, ofNat 1 = .finite v ∧ v.negative = false ∧ v.rank.val = powerRank 0 := by
  have h := exists_ofNat_two_pow (Nat.zero_le 1023)
  rwa [Nat.pow_zero] at h

/-- A finite number up to the magnitude of a rank, of either sign. -/
def AtMost (r : Nat) (x : Binary64) : Prop := ∃ v, x = .finite v ∧ v.rank.val ≤ r

/-- A finite number from zero up to the magnitude of a rank. -/
def UpTo (r : Nat) (x : Binary64) : Prop := ∃ v, x = .finite v ∧ v.IsNonneg ∧ v.rank.val ≤ r

theorem AtMost.isFinite (h : x.AtMost r) : x.isFinite = true := by
  obtain ⟨v, rfl, -⟩ := h
  rfl

theorem UpTo.isFinite (h : x.UpTo r) : x.isFinite = true := by
  obtain ⟨v, rfl, -⟩ := h
  rfl

theorem UpTo.ne_nan (h : x.UpTo r) : x ≠ .nan := by
  obtain ⟨v, rfl, -⟩ := h
  exact nofun

theorem units_of_rank_eq_zero (hv : v.rank.val = 0) : v.units = 0 := by
  simp [FiniteBinary64.units, hv, unitsOfRank]

theorem units_le (hv : v.rank.val ≤ r) : v.units ≤ unitsOfRank r :=
  unitsOfRank_strictMono.monotone hv

theorem le_units (hv : r ≤ v.rank.val) : unitsOfRank r ≤ v.units :=
  unitsOfRank_strictMono.monotone hv

theorem atMost_ofRatio (hden : 0 < den) (hr : r < rankLimit) (h : num ≤ unitsOfRank r * den) :
    (ofRatio negative num den).AtMost r := by
  have hle : rankOfRatio num den ≤ r := rankOfRatio_le hden h
  exact ⟨_, ofRatio_of_lt (Nat.lt_of_le_of_lt hle hr), hle⟩

theorem upTo_ofRatio (hden : 0 < den) (hr : r < rankLimit) (h : num ≤ unitsOfRank r * den)
    (hsign : negative = true → num = 0) : (ofRatio negative num den).UpTo r := by
  have hle : rankOfRatio num den ≤ r := rankOfRatio_le hden h
  refine ⟨_, ofRatio_of_lt (Nat.lt_of_le_of_lt hle hr), fun hnegative => ?_, hle⟩
  exact Nat.le_zero.1 (rankOfRatio_le hden (by simp [hsign hnegative]))

theorem AtMost.mul (hx : x.AtMost r) (hy : y.AtMost s) (ht : t < rankLimit)
    (h : unitsOfRank r * unitsOfRank s ≤ unitsOfRank t * one) : (x.mul y).AtMost t := by
  obtain ⟨v, rfl, hv⟩ := hx
  obtain ⟨w, rfl, hw⟩ := hy
  have hunits : v.units * w.units ≤ unitsOfRank r * unitsOfRank s :=
    Nat.mul_le_mul (units_le hv) (units_le hw)
  exact atMost_ofRatio one_units_pos ht (Nat.le_trans hunits h)

theorem UpTo.mul (hx : x.UpTo r) (hy : y.UpTo s) (ht : t < rankLimit)
    (h : unitsOfRank r * unitsOfRank s ≤ unitsOfRank t * one) : (x.mul y).UpTo t := by
  obtain ⟨v, rfl, hvsign, hv⟩ := hx
  obtain ⟨w, rfl, hwsign, hw⟩ := hy
  have hunits : v.units * w.units ≤ unitsOfRank r * unitsOfRank s :=
    Nat.mul_le_mul (units_le hv) (units_le hw)
  refine upTo_ofRatio one_units_pos ht (Nat.le_trans hunits h) ?_
  intro hsign
  cases hnegative : v.negative with
  | true => rw [units_of_rank_eq_zero (hvsign hnegative), Nat.zero_mul]
  | false =>
    have hwnegative : w.negative = true := by simpa [hnegative] using hsign
    rw [units_of_rank_eq_zero (hwsign hwnegative), Nat.mul_zero]

theorem upTo_zero : zero.UpTo r := ⟨.zero false, rfl, nofun, Nat.zero_le r⟩

theorem upTo_ofNat_one : (ofNat 1).UpTo (powerRank 0) := by
  obtain ⟨v, hv, hunsigned, hrank⟩ := exists_ofNat_one
  exact ⟨v, hv, .of_unsigned hunsigned, hrank.le⟩

/-- A number from the magnitude of a rank up, of either sign; infinities are such numbers. -/
def AtLeast (r : Nat) (x : Binary64) : Prop :=
  (∃ s, x = .infinite s) ∨ ∃ v, x = .finite v ∧ r ≤ v.rank.val

/-- No finite number is that large. -/
theorem AtLeast.isFinite_eq_false (h : x.AtLeast r) (hr : rankLimit ≤ r) : x.isFinite = false := by
  obtain ⟨s, rfl⟩ | ⟨v, rfl, hv⟩ := h
  · rfl
  · exact absurd v.rank.isLt (Nat.not_lt.2 (Nat.le_trans hr hv))

theorem atLeast_ofRatio (hden : 0 < den) (h : unitsOfRank r * den ≤ num) :
    (ofRatio negative num den).AtLeast r := by
  by_cases hlt : rankOfRatio num den < rankLimit
  · exact .inr ⟨_, ofRatio_of_lt hlt, le_rankOfRatio hden h⟩
  · exact .inl ⟨negative, dif_neg hlt⟩

theorem isZero_eq_false (hr : 0 < r) (hv : r ≤ v.rank.val) : v.isZero = false := by
  simp only [FiniteBinary64.isZero, beq_eq_false_iff_ne]
  omega

theorem AtLeast.mul (hx : x.AtLeast r) (hy : y.AtLeast s) (hr : 0 < r) (hs : 0 < s)
    (h : unitsOfRank t * one ≤ unitsOfRank r * unitsOfRank s) : (x.mul y).AtLeast t := by
  obtain ⟨a, rfl⟩ | ⟨v, rfl, hv⟩ := hx
  · obtain ⟨b, rfl⟩ | ⟨w, rfl, hw⟩ := hy
    · exact .inl ⟨_, rfl⟩
    · exact .inl ⟨a != w.negative, by simp [Binary64.mul, isZero_eq_false hs hw]⟩
  · obtain ⟨b, rfl⟩ | ⟨w, rfl, hw⟩ := hy
    · exact .inl ⟨v.negative != b, by simp [Binary64.mul, isZero_eq_false hr hv]⟩
    · have hunits : unitsOfRank r * unitsOfRank s ≤ v.units * w.units :=
        Nat.mul_le_mul (le_units hv) (le_units hw)
      exact atLeast_ofRatio one_units_pos (Nat.le_trans h hunits)

/-- A product with one is not rounded. -/
theorem mul_ofNat_one (v : FiniteBinary64) : (Binary64.finite v).mul (ofNat 1) = .finite v := by
  obtain ⟨unit, hunit, hunsigned, hrank⟩ := exists_ofNat_one
  have hunits : unit.units = one := by
    rw [FiniteBinary64.units, hrank, unitsOfRank_powerRank_zero]
  have hround : rankOfRatio (v.units * one) one = v.rank.val := rankOfRatio_unitsOfRank one_units_pos
  have hlt : rankOfRatio (v.units * one) one < rankLimit := hround ▸ v.rank.isLt
  rw [hunit, Binary64.mul, hunits, hunsigned, Bool.bne_false, ofRatio_of_lt hlt]
  obtain ⟨negative, rank⟩ := v
  simp only [hround]

theorem exists_zero_mul (h : x.isFinite = true) :
    ∃ v, zero.mul x = .finite v ∧ v.rank.val = 0 := by
  cases x with
  | finite w =>
    have hunits : (FiniteBinary64.zero false).units * w.units = 0 := by
      rw [units_of_rank_eq_zero rfl, Nat.zero_mul]
    refine ⟨.zero (false != w.negative), ?_, rfl⟩
    rw [zero, Binary64.mul, hunits]
    exact ofRatio_zero one_units_pos
  | _ => cases h

/-- Zero times infinity is no number. -/
theorem zero_mul_of_not_isFinite (h : x.isFinite = false) : zero.mul x = .nan := by
  cases x with
  | finite w => cases h
  | _ => rfl

def isSigned : Binary64 → Bool
  | .nan => false
  | .infinite s => s
  | .finite v => v.negative

theorem isSigned_ofRatio (negative : Bool) (num den : Nat) :
    (ofRatio negative num den).isSigned = negative := by
  unfold ofRatio
  split <;> rfl

/-- No product of numbers without a minus has one. -/
theorem isSigned_mul (hx : x.isSigned = false) (hy : y.isSigned = false) :
    (x.mul y).isSigned = false := by
  have hsign {p q : Bool} (hp : p = false) (hq : q = false) : (p != q) = false := by
    rw [hp, hq]
    rfl
  cases x with
  | nan => rfl
  | infinite p =>
    cases y with
    | nan => rfl
    | infinite q => exact hsign hx hy
    | finite w =>
      rw [Binary64.mul]
      cases w.isZero with
      | true => rfl
      | false => exact hsign hx hy
  | finite v =>
    cases y with
    | nan => rfl
    | infinite q =>
      rw [Binary64.mul]
      cases v.isZero with
      | true => rfl
      | false => exact hsign hx hy
    | finite w =>
      rw [Binary64.mul, isSigned_ofRatio]
      exact hsign hx hy

theorem min_finite (v w : FiniteBinary64) : (Binary64.finite v).min (.finite w) =
    if w.signedUnits < v.signedUnits then .finite w else .finite v := by
  simp [Binary64.min, lt]

@[simp] theorem lt_zero_iff : (Binary64.finite v).lt zero = true ↔ v.signedUnits < 0 := by
  simp [zero, lt, FiniteBinary64.signedUnits, FiniteBinary64.zero, FiniteBinary64.units, unitsOfRank]

theorem lt_zero_eq_false_iff : (Binary64.finite v).lt zero = false ↔ v.IsNonneg := by
  rw [Bool.eq_false_iff, ne_eq, lt_zero_iff, Int.not_lt, FiniteBinary64.signedUnits_nonneg_iff]

@[simp] theorem lt_self (x : Binary64) : x.lt x = false := by
  cases x <;> simp [lt]

theorem max_zero (v : FiniteBinary64) :
    (Binary64.finite v).max zero = if v.signedUnits < 0 then zero else .finite v := by
  simp only [← lt_zero_iff]
  rfl

theorem max_zero_of_isNonneg (hv : v.IsNonneg) : (Binary64.finite v).max zero = .finite v := by
  rw [max_zero, if_neg (Int.not_lt.2 (FiniteBinary64.signedUnits_nonneg_iff.2 hv))]

/-- What is left of a number that is cut at a cap and at zero: a number up to the cap, and below a
bound exactly if the cap is or the number was. -/
structure IsCut (x : Binary64) (cap bound v : FiniteBinary64) : Prop where
  isFinite : (x.min (.finite cap)).isFinite = true
  max_zero : (x.min (.finite cap)).max zero = .finite v
  nonneg : v.IsNonneg
  rank_le : v.rank.val ≤ cap.rank.val
  below_iff : v.rank.val < bound.rank.val ↔
    cap.rank.val < bound.rank.val ∨ x.lt (.finite bound) = true

variable {cap bound : FiniteBinary64}

theorem isCut_cap (hcap : cap.IsNonneg) (hmin : x.min (.finite cap) = .finite cap)
    (hbelow : x.lt (.finite bound) = true → cap.rank.val < bound.rank.val) :
    IsCut x cap bound cap where
  isFinite := by
    rw [hmin]
    rfl
  max_zero := by rw [hmin, max_zero_of_isNonneg hcap]
  nonneg := hcap
  rank_le := Nat.le_refl _
  below_iff := ⟨.inl, fun h => h.elim id hbelow⟩

@[simp] theorem lt_finite_iff (v w : FiniteBinary64) :
    (Binary64.finite v).lt (.finite w) = true ↔ v.signedUnits < w.signedUnits := by
  simp [lt]

theorem exists_isCut_finite (hcap : cap.IsNonneg) (hbound : bound.IsNonneg)
    (hpos : 0 < bound.rank.val) (v : FiniteBinary64) : ∃ w, IsCut (.finite v) cap bound w := by
  by_cases hover : cap.signedUnits < v.signedUnits
  · refine ⟨cap, isCut_cap hcap (by rw [min_finite, if_pos hover]) fun hlt => ?_⟩
    rw [lt_finite_iff] at hlt
    exact (hcap.signedUnits_lt_iff hbound).1 (Int.lt_trans hover hlt)
  · have hmin : (Binary64.finite v).min (.finite cap) = .finite v := by
      rw [min_finite, if_neg hover]
    have hfinite : ((Binary64.finite v).min (.finite cap)).isFinite = true := by
      rw [hmin]
      rfl
    by_cases hnegative : v.signedUnits < 0
    · have hbelow : v.signedUnits < bound.signedUnits :=
        Int.lt_of_lt_of_le hnegative (FiniteBinary64.signedUnits_nonneg_iff.2 hbound)
      refine ⟨.zero false, hfinite, ?_, fun _ => rfl, Nat.zero_le _, ?_⟩
      · rw [hmin, max_zero, if_pos hnegative, zero]
      · exact ⟨fun _ => .inr ((lt_finite_iff v bound).2 hbelow), fun _ => hpos⟩
    · have hv : v.IsNonneg := FiniteBinary64.signedUnits_nonneg_iff.1 (Int.not_lt.1 hnegative)
      have hle : v.rank.val ≤ cap.rank.val := by
        rw [hcap.signedUnits_lt_iff hv] at hover
        exact Nat.not_lt.1 hover
      refine ⟨v, hfinite, by rw [hmin, max_zero_of_isNonneg hv], hv, hle, ?_⟩
      rw [lt_finite_iff, hv.signedUnits_lt_iff hbound]
      exact ⟨.inr, fun h => h.elim (Nat.lt_of_le_of_lt hle) id⟩

/-- A nan leaves the cap, and only the negative infinity is not cut to a finite number. -/
theorem exists_isCut (hcap : cap.IsNonneg) (hbound : bound.IsNonneg) (hpos : 0 < bound.rank.val)
    (x : Binary64) : x = .infinite true ∨ ∃ v, IsCut x cap bound v := by
  cases x with
  | nan => exact .inr ⟨cap, isCut_cap hcap rfl nofun⟩
  | infinite s =>
    cases s with
    | true => exact .inl rfl
    | false => exact .inr ⟨cap, isCut_cap hcap rfl nofun⟩
  | finite v => exact .inr (exists_isCut_finite hcap hbound hpos v)

/-- A number that is neither below zero nor above one. -/
theorem upTo_of_not_lt (hx : x ≠ .nan) (hlow : x.lt zero = false) (hhigh : (ofNat 1).lt x = false) :
    x.UpTo (powerRank 0) := by
  obtain ⟨w, hw, hunsigned, hrank⟩ := exists_ofNat_one
  rw [hw] at hhigh
  cases x with
  | nan => exact absurd rfl hx
  | infinite s =>
    cases s with
    | true => cases hlow
    | false => cases hhigh
  | finite v =>
    have hnonneg : v.IsNonneg := lt_zero_eq_false_iff.1 hlow
    refine ⟨v, rfl, hnonneg, ?_⟩
    rw [lt, decide_eq_false_iff_not,
      (FiniteBinary64.IsNonneg.of_unsigned hunsigned).signedUnits_lt_iff hnonneg, hrank] at hhigh
    exact Nat.not_lt.1 hhigh

theorem clamp_ofNat_one : (ofNat 1).clamp zero (ofNat 1) = ofNat 1 := by
  obtain ⟨v, hv, hunsigned, -⟩ := exists_ofNat_one
  have hlow : (ofNat 1).lt zero = false := by
    rw [hv]
    exact lt_zero_eq_false_iff.2 (.of_unsigned hunsigned)
  rw [clamp, hlow, lt_self, if_neg Bool.false_ne_true, if_neg Bool.false_ne_true]

theorem upTo_clamp (hx : x ≠ .nan) : (x.clamp zero (ofNat 1)).UpTo (powerRank 0) := by
  unfold clamp
  split
  next => exact upTo_zero
  next hlow =>
    split
    next => exact upTo_ofNat_one
    next hhigh => exact upTo_of_not_lt hx (Bool.not_eq_true _ ▸ hlow) (Bool.not_eq_true _ ▸ hhigh)

end Binary64
end DuplexRpc
