import DuplexRpc.Proofs.Binary64.Rounding

/-!
The ranks of powers of two, and the magnitudes next to them. From `2 ^ 53` on these are whole numbers
a power of two apart, so that from there on the middle between two of them is a whole number as well.
-/
namespace DuplexRpc.Binary64

variable {n m e j k : Nat}

/-- The rank of `2 ^ e`. -/
def powerRank (e : Nat) : Nat := (1023 + e) * binade

/-- The rank of the greatest number below `2 ^ e`. -/
abbrev belowRank (e : Nat) : Nat := powerRank e - 1

theorem powerRank_eq (e : Nat) : powerRank e = (1022 + e) * binade + binade := by
  unfold powerRank
  ring

theorem powerRank_pos (e : Nat) : 0 < powerRank e := Nat.mul_pos (by omega) (by decide)

theorem powerRank_lt (he : e ≤ 1023) : powerRank e < rankLimit :=
  Nat.mul_lt_mul_of_pos_right (by omega) (by decide)

theorem belowRank_succ (e : Nat) : belowRank e + 1 = powerRank e :=
  Nat.sub_add_cancel (powerRank_pos e)

theorem two_pow_units (k : Nat) : 2 ^ (k + 1074) = 2 ^ k * one := by
  rw [one_eq]
  generalize 1074 = e
  exact Nat.pow_add 2 k e

theorem unitsOfRank_powerRank (e : Nat) : unitsOfRank (powerRank e) = 2 ^ e * one := by
  rw [powerRank_eq, unitsOfRank_add (Nat.le_refl _) (by decide), ← two_pow_units]
  calc binade * 2 ^ (1022 + e) = 2 ^ (52 + (1022 + e)) := (Nat.pow_add 2 52 _).symm
    _ = 2 ^ (e + 1074) := by rw [Nat.add_comm e, ← Nat.add_assoc]

theorem unitsOfRank_powerRank_zero : unitsOfRank (powerRank 0) = one := by
  rw [unitsOfRank_powerRank, Nat.pow_zero, Nat.one_mul]

theorem unitsOfRank_belowRank (e : Nat) :
    unitsOfRank (belowRank e) = (2 ^ 53 - 1) * 2 ^ (1021 + e) := by
  have hrank : belowRank e = (1021 + e) * binade + (2 ^ 53 - 1) := by
    have hshift : (1022 + e) * binade = (1021 + e) * binade + binade := by ring
    rw [belowRank, powerRank_eq, hshift]
    unfold binade
    omega
  rw [hrank, unitsOfRank_add (by decide) (by decide)]

theorem unitsOfRank_powerRank_succ (e : Nat) :
    unitsOfRank (powerRank e + 1) = (2 ^ 52 + 1) * 2 ^ (1022 + e) := by
  rw [powerRank_eq, Nat.add_assoc, unitsOfRank_add (by decide) (by decide)]
  rfl

/-- From `2 ^ 53` on the numbers below `2 ^ e` are whole ones, `2 ^ (e - 53)` apart. -/
theorem unitsOfRank_belowRank_eq (he : 53 ≤ e) (hm : m + 2 ^ (e - 53) = 2 ^ e) :
    unitsOfRank (belowRank e) = m * one := by
  obtain ⟨d, rfl⟩ := Nat.exists_eq_add_of_le he
  have hexponent : 1021 + (53 + d) = d + 1074 := by omega
  have hfactor : m = (2 ^ 53 - 1) * 2 ^ d := by
    rw [Nat.add_sub_cancel_left, Nat.pow_add] at hm
    rw [Nat.sub_mul, Nat.one_mul]
    omega
  rw [unitsOfRank_belowRank, hexponent, two_pow_units, ← Nat.mul_assoc, hfactor]

/-- From `2 ^ 52` on the numbers above `2 ^ e` are whole ones, `2 ^ (e - 52)` apart. -/
theorem unitsOfRank_powerRank_succ_eq (he : 52 ≤ e) (hm : m = 2 ^ e + 2 ^ (e - 52)) :
    unitsOfRank (powerRank e + 1) = m * one := by
  obtain ⟨d, rfl⟩ := Nat.exists_eq_add_of_le he
  have hexponent : 1022 + (52 + d) = d + 1074 := by omega
  have hfactor : m = (2 ^ 52 + 1) * 2 ^ d := by
    rw [hm, Nat.add_sub_cancel_left, Nat.pow_add, Nat.add_mul, Nat.one_mul]
  rw [unitsOfRank_powerRank_succ, hexponent, two_pow_units, ← Nat.mul_assoc, hfactor]

/-- The part next to one of a power of two is the number below that power. -/
theorem unitsOfRank_belowRank_mul (e : Nat) :
    unitsOfRank (belowRank 0) * unitsOfRank (powerRank e) = unitsOfRank (belowRank e) * one := by
  rw [unitsOfRank_belowRank, unitsOfRank_belowRank, unitsOfRank_powerRank]
  generalize 1021 = k, one = unit
  ring

/-- The part next to one of the number above a power of two is not below that power. -/
theorem le_unitsOfRank_belowRank_mul (e : Nat) :
    unitsOfRank (powerRank e) * one ≤
      unitsOfRank (belowRank 0) * unitsOfRank (powerRank e + 1) := by
  rw [unitsOfRank_belowRank, unitsOfRank_powerRank_succ, unitsOfRank_powerRank, Nat.add_zero]
  calc 2 ^ e * one * one = 2 ^ 105 * (2 ^ 1021 * 2 ^ (1022 + e)) := by
        rw [one_eq, ← Nat.pow_add, ← Nat.pow_add, ← Nat.pow_add, ← Nat.pow_add]
        congr 1
        omega
    _ ≤ (2 ^ 53 - 1) * (2 ^ 52 + 1) * (2 ^ 1021 * 2 ^ (1022 + e)) :=
        Nat.mul_le_mul_right _ (by decide)
    _ = (2 ^ 53 - 1) * 2 ^ 1021 * ((2 ^ 52 + 1) * 2 ^ (1022 + e)) := Nat.mul_mul_mul_comm ..

/-- The magnitude of `2 ^ -j` is contained `2 ^ j` times in one. -/
theorem one_eq_two_pow_mul (h : j + (52 + k) = 1074) :
    one = 2 ^ j * unitsOfRank (k * binade + binade) := by
  have hbinade : binade = 2 ^ 52 := rfl
  rw [unitsOfRank_add (Nat.le_refl _) (by decide), one_eq, hbinade, ← h, Nat.pow_add, Nat.pow_add]

/-- A whole number of at most 53 bits is a magnitude. -/
theorem unitsOfRank_whole (hj : j ≤ 1074) (hn : binade ≤ n * 2 ^ j)
    (hn' : n * 2 ^ j ≤ 2 * binade) :
    unitsOfRank ((1074 - j) * binade + n * 2 ^ j) = n * one := by
  have hpow : 2 ^ j * 2 ^ (1074 - j) = one := by
    rw [one_eq]
    generalize 1074 = e at *
    rw [← Nat.pow_add, Nat.add_sub_cancel' hj]
  rw [unitsOfRank_add hn hn', Nat.mul_assoc, hpow]

theorem two_lt_two_pow (he : k + 2 ≤ e) : 2 < 2 ^ (e - k) :=
  Nat.lt_of_lt_of_le (by decide : 2 < 2 ^ 2) (Nat.pow_le_pow_right (by decide) (by omega))

theorem gap_powerRank (he : 54 ≤ e) :
    unitsOfRank (powerRank e) + 2 * one < unitsOfRank (powerRank e + 1) := by
  have hgap : 2 < 2 ^ (e - 52) := two_lt_two_pow he
  rw [unitsOfRank_powerRank, unitsOfRank_powerRank_succ_eq (by omega) rfl, Nat.add_mul]
  exact Nat.add_lt_add_left (Nat.mul_lt_mul_of_pos_right hgap one_units_pos) _

theorem gap_belowRank (he : 55 ≤ e) :
    unitsOfRank (belowRank e) + 2 * one < unitsOfRank (belowRank e + 1) := by
  have hgap : 2 < 2 ^ (e - 53) := two_lt_two_pow he
  have hle : 2 ^ (e - 53) ≤ 2 ^ e := Nat.pow_le_pow_right (by decide) (Nat.sub_le e 53)
  rw [belowRank_succ, unitsOfRank_powerRank,
    unitsOfRank_belowRank_eq (by omega) (Nat.sub_add_cancel hle), ← Nat.add_mul]
  exact Nat.mul_lt_mul_of_pos_right (by omega) one_units_pos

theorem two_pow_sub (he : k + 1 ≤ e) : 2 ^ (e - k) = 2 * 2 ^ (e - (k + 1)) := by
  have hstep : e - k = e - (k + 1) + 1 := by omega
  rw [hstep, Nat.pow_succ']

theorem middle_powerRank (he : 53 ≤ e) (hm : m = 2 ^ e + 2 ^ (e - 53)) :
    middle (powerRank e) = 2 * m * one := by
  have hdouble : 2 ^ (e - 52) = 2 * 2 ^ (e - 53) := two_pow_sub he
  rw [middle, unitsOfRank_powerRank, unitsOfRank_powerRank_succ_eq (by omega) rfl, ← Nat.add_mul]
  congr 1
  omega

theorem middle_belowRank (he : 54 ≤ e) (hm : m + 2 ^ (e - 54) = 2 ^ e) :
    middle (belowRank e) = 2 * m * one := by
  have hdouble : 2 ^ (e - 53) = 2 * 2 ^ (e - 54) := two_pow_sub he
  have hle : 2 ^ (e - 53) ≤ 2 ^ e := Nat.pow_le_pow_right (by decide) (Nat.sub_le e 53)
  rw [middle, belowRank_succ, unitsOfRank_powerRank,
    unitsOfRank_belowRank_eq (by omega) (Nat.sub_add_cancel hle), ← Nat.add_mul]
  congr 1
  omega

end DuplexRpc.Binary64
