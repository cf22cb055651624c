import DuplexRpc.Proofs.Binary64.Magnitude

/-!
Powers by repeated squaring. Each product is rounded, but between powers of two no rounding leads
out; so a power is finite, or is not, as soon as the powers of two below and above its base say so.
-/
namespace DuplexRpc.Binary64

variable {a e n : Nat} {x f : Binary64}

theorem unitsOfRank_powerRank_mul (a e : Nat) :
    unitsOfRank (powerRank a) * unitsOfRank (powerRank e) =
      unitsOfRank (powerRank (a + e)) * one := by
  rw [unitsOfRank_powerRank, unitsOfRank_powerRank, unitsOfRank_powerRank, Nat.pow_add]
  generalize one = unit
  ring

theorem AtMost.mul_powerRank (hx : x.AtMost (powerRank a)) (hf : f.AtMost (powerRank e))
    (h : a + e ≤ 1023) : (x.mul f).AtMost (powerRank (a + e)) :=
  hx.mul hf (powerRank_lt h) (unitsOfRank_powerRank_mul a e).le

theorem AtLeast.mul_powerRank (hx : x.AtLeast (powerRank a)) (hf : f.AtLeast (powerRank e)) :
    (x.mul f).AtLeast (powerRank (a + e)) :=
  hx.mul hf (powerRank_pos a) (powerRank_pos e) (unitsOfRank_powerRank_mul a e).ge

/-- The factor that one binary digit of the exponent contributes. -/
theorem AtMost.mul_digit (hx : x.AtMost (powerRank a)) (hf : f.AtMost (powerRank e))
    (h : a + e * (n % 2) ≤ 1023) :
    (if n % 2 = 1 then x.mul f else x).AtMost (powerRank (a + e * (n % 2))) := by
  rcases Nat.mod_two_eq_zero_or_one n with hdigit | hdigit
  · simpa [hdigit] using hx
  · rw [hdigit, Nat.mul_one] at h ⊢
    exact hx.mul_powerRank hf h

theorem AtLeast.mul_digit (hx : x.AtLeast (powerRank a)) (hf : f.AtLeast (powerRank e)) :
    (if n % 2 = 1 then x.mul f else x).AtLeast (powerRank (a + e * (n % 2))) := by
  rcases Nat.mod_two_eq_zero_or_one n with hdigit | hdigit
  · simpa [hdigit] using hx
  · rw [hdigit, Nat.mul_one]
    exact hx.mul_powerRank hf

theorem add_mul_digits (a e n : Nat) : a + e * n = a + e * (n % 2) + (e + e) * (n / 2) := by
  conv_lhs => rw [← Nat.mod_add_div n 2]
  ring

theorem atMost_powFrom (x f : Binary64) (n : Nat) : ∀ a e, x.AtMost (powerRank a) →
    f.AtMost (powerRank e) → a + e * n ≤ 1023 →
      (powFrom x f n).AtMost (powerRank (a + e * n)) := by
  fun_induction powFrom x f n with
  | case1 x f n x' hlast =>
    intro a e hx hf h
    rw [add_mul_digits, hlast, Nat.mul_zero, Nat.add_zero] at h ⊢
    exact hx.mul_digit hf h
  | case2 x f n x' hmore ih =>
    intro a e hx hf h
    rw [add_mul_digits] at h ⊢
    have hsquare : e + e ≤ (e + e) * (n / 2) := Nat.le_mul_of_pos_right _ (Nat.pos_of_ne_zero hmore)
    exact ih _ _ (hx.mul_digit hf (by omega)) (hf.mul_powerRank hf (by omega)) h

theorem atLeast_powFrom (x f : Binary64) (n : Nat) : ∀ a e, x.AtLeast (powerRank a) →
    f.AtLeast (powerRank e) → (powFrom x f n).AtLeast (powerRank (a + e * n)) := by
  fun_induction powFrom x f n with
  | case1 x f n x' hlast =>
    intro a e hx hf
    rw [add_mul_digits, hlast, Nat.mul_zero, Nat.add_zero]
    exact hx.mul_digit hf
  | case2 x f n x' hmore ih =>
    intro a e hx hf
    rw [add_mul_digits]
    exact ih _ _ (hx.mul_digit hf) (hf.mul_powerRank hf)

theorem isSigned_powFrom (hx : x.isSigned = false) (hf : f.isSigned = false) :
    (powFrom x f n).isSigned = false := by
  have hdigit {x f : Binary64} {n : Nat} (hx : x.isSigned = false) (hf : f.isSigned = false) :
      (if n % 2 = 1 then x.mul f else x).isSigned = false := by
    split
    · exact isSigned_mul hx hf
    · exact hx
  fun_induction powFrom x f n with
  | case1 x f n x' hlast => exact hdigit hx hf
  | case2 x f n x' hmore ih => exact ih (hdigit hx hf) (isSigned_mul hf hf)

/-- A power stays in range if a power of two not below the base does. -/
theorem isFinite_pow (hf : f.AtMost (powerRank e)) (h : e * n ≤ 1023) :
    (f.pow n).isFinite = true := by
  obtain ⟨v, hone, -, hrank⟩ := exists_ofNat_one
  have hpow := atMost_powFrom (ofNat 1) f n 0 e ⟨v, hone, hrank.le⟩ hf (by omega)
  exact hpow.isFinite

/-- A power is out of range if a power of two not above the base is. -/
theorem isFinite_pow_eq_false (hf : f.AtLeast (powerRank e)) (h : 1024 ≤ e * n) :
    (f.pow n).isFinite = false := by
  obtain ⟨v, hone, -, hrank⟩ := exists_ofNat_one
  have hpow := atLeast_powFrom (ofNat 1) f n 0 e (.inr ⟨v, hone, hrank.ge⟩) hf
  refine hpow.isFinite_eq_false ?_
  exact Nat.mul_le_mul_right binade (by omega)

theorem isSigned_pow (hf : f.isSigned = false) (n : Nat) : (f.pow n).isSigned = false :=
  isSigned_powFrom (isSigned_ofRatio false _ 1) hf

end DuplexRpc.Binary64
