import DuplexRpc.Binary64.Basic
import Mathlib.Order.Monotone.Basic
import Mathlib.Tactic.Ring

/-!
Rounding to the nearest magnitude. The main statement says exactly when a ratio is rounded to a given
rank or below it: if it lies below the middle of that magnitude and the next, or in the middle and
the rank is even. So rounding keeps the order, and a ratio that is a magnitude stays what it is.
-/
namespace DuplexRpc.Binary64

variable {num den r s k d : Nat}

theorem one_eq : one = 2 ^ 1074 := by decide +kernel

theorem one_units_pos : 0 < one := by
  rw [one_eq]
  apply Nat.two_pow_pos

theorem divRound_bounds (num den : Nat) :
    num / den ≤ divRound num den ∧ divRound num den ≤ num / den + 1 := by
  unfold divRound
  dsimp only
  split
  · omega
  · split <;> omega

/-- The rounded quotient is at most `d` exactly if the quotient is below `d + 1 / 2`, or equal to it
and `d` is even. -/
theorem divRound_le_iff (hden : 0 < den) : divRound num den ≤ d ↔
    2 * num < (2 * d + 1) * den ∨ (2 * num = (2 * d + 1) * den ∧ d % 2 = 0) := by
  obtain ⟨hlow, hhigh⟩ := divRound_bounds num den
  have hrest : num % den < den := Nat.mod_lt _ hden
  have hnum : den * (num / den) + num % den = num := Nat.div_add_mod num den
  have hodd (c : Nat) : (2 * c + 1) * den = 2 * (den * c) + den := by ring
  rw [hodd]
  rcases Nat.lt_trichotomy d (num / den) with hlt | rfl | hgt
  · have hstep : den * d + den ≤ den * (num / den) := by
      rw [← Nat.mul_succ]
      exact Nat.mul_le_mul_left _ hlt
    constructor
    · intro h
      omega
    · intro h
      omega
  · have hexact : divRound num den ≤ num / den ↔
        2 * (num % den) < den ∨ (2 * (num % den) = den ∧ num / den % 2 = 0) := by
      unfold divRound
      dsimp only
      split
      · omega
      · split <;> omega
    rw [hexact]
    omega
  · have hstep : den * (num / den) + den ≤ den * d := by
      rw [← Nat.mul_succ]
      exact Nat.mul_le_mul_left _ hgt
    constructor
    · intro _
      omega
    · intro _
      omega

/-- The rank of the `d`-th magnitude from the start of a binade, both its ends included. -/
theorem rank_div_mod {b k d : Nat} (hd : b ≤ d) (hlt : d < 2 * b) :
    (k * b + d) / b = k + 1 ∧ (k * b + d) % b = d - b := by
  have hrest : d - b < b := by omega
  have hrank : k * b + d = d - b + (k + 1) * b := by rw [Nat.succ_mul]; omega
  rw [hrank]
  constructor
  · rw [Nat.add_mul_div_right _ _ (Nat.zero_lt_of_lt hrest), Nat.div_eq_of_lt hrest, Nat.zero_add]
  · rw [Nat.add_mul_mod_self_right, Nat.mod_eq_of_lt hrest]

theorem unitsOfRank_add {k d : Nat} (hd : binade ≤ d) (hd' : d ≤ 2 * binade) :
    unitsOfRank (k * binade + d) = d * 2 ^ k := by
  have hlarge : ¬k * binade + d < binade := by omega
  have hpos : 0 < binade := by decide
  rw [unitsOfRank, if_neg hlarge, Nat.pow_eq]
  generalize binade = b at *
  obtain hlt | rfl := Nat.lt_or_eq_of_le hd'
  · obtain ⟨hdiv, hmod⟩ := rank_div_mod (k := k) hd hlt
    rw [hdiv, hmod, Nat.add_sub_cancel, Nat.add_sub_cancel' hd]
  · rw [← Nat.add_mul, Nat.mul_mod_left, Nat.mul_div_cancel _ hpos, Nat.add_zero]
    have hpow : 2 ^ (k + 2 - 1) = 2 * 2 ^ k := by
      rw [Nat.add_sub_assoc (by decide), Nat.pow_succ, Nat.mul_comm]
    rw [hpow, ← Nat.mul_assoc, Nat.mul_comm b]

theorem unitsOfRank_of_le (hd : d ≤ 2 * binade) : unitsOfRank d = d := by
  by_cases hlt : d < binade
  · rw [unitsOfRank, if_pos hlt]
  · simpa using unitsOfRank_add (k := 0) (Nat.le_of_not_lt hlt) hd

/-- A rank below the second binade, or one of a binade with all magnitudes `2 ^ k` apart. -/
theorem rank_cases (r : Nat) :
    r < 2 * binade ∨ ∃ k d, r = k * binade + d ∧ binade ≤ d ∧ d < 2 * binade := by
  by_cases hlt : r < 2 * binade
  · exact .inl hlt
  · refine .inr ⟨r / binade - 1, binade + r % binade, ?_, ?_, ?_⟩ <;>
      simp only [binade] at * <;> omega

theorem unitsOfRank_strictMono : StrictMono unitsOfRank := by
  refine strictMono_nat_of_lt_succ fun r => ?_
  rcases rank_cases r with hlt | ⟨k, d, rfl, hd, hlt⟩
  · rw [unitsOfRank_of_le hlt.le, unitsOfRank_of_le hlt]
    exact Nat.lt_succ_self r
  · rw [Nat.add_assoc, unitsOfRank_add hd hlt.le, unitsOfRank_add (by omega) hlt]
    exact Nat.mul_lt_mul_of_pos_right (Nat.lt_succ_self d) (Nat.two_pow_pos k)

/-- Twice the middle of a magnitude and the next one, in units. -/
def middle (r : Nat) : Nat := unitsOfRank r + unitsOfRank (r + 1)

theorem middle_strictMono : StrictMono middle := by
  refine strictMono_nat_of_lt_succ fun r => ?_
  have hlow : unitsOfRank r < unitsOfRank (r + 1) := unitsOfRank_strictMono (Nat.lt_succ_self r)
  have hhigh : unitsOfRank (r + 1) < unitsOfRank (r + 1 + 1) :=
    unitsOfRank_strictMono (Nat.lt_succ_self (r + 1))
  unfold middle
  omega

/-- The ratio lies below the middle above a magnitude, or in it, and then the magnitude is the one
with the even rank. -/
def IsBelowMiddle (num den r : Nat) : Prop :=
  2 * num < middle r * den ∨ (2 * num = middle r * den ∧ r % 2 = 0)

theorem IsBelowMiddle.mono (hden : 0 < den) (h : IsBelowMiddle num den r) (hrs : r ≤ s) :
    IsBelowMiddle num den s := by
  obtain rfl | hlt := Nat.eq_or_lt_of_le hrs
  · exact h
  · have hmiddle := Nat.mul_lt_mul_of_pos_right (middle_strictMono hlt) hden
    unfold IsBelowMiddle at *
    omega

/-- Where the nearest magnitude stands: as the `d`-th of those `2 ^ k` apart, which make up a whole
binade unless they are the first. -/
theorem rankOfRatio_eq (num den : Nat) : ∃ k d, rankOfRatio num den = k * binade + d ∧
    d = divRound num (den * 2 ^ k) ∧ d ≤ 2 * binade ∧
    (0 < k → binade ≤ d ∧ binade * 2 ^ k * den ≤ num) := by
  refine ⟨(num / den).log2 - 52, _, rfl, rfl, ?_, ?_⟩
  · obtain ⟨-, hhigh⟩ := divRound_bounds num (den * 2 ^ ((num / den).log2 - 52))
    rw [← Nat.div_div_eq_div_mul] at hhigh
    refine Nat.le_trans hhigh (Nat.succ_le_of_lt ?_)
    rw [Nat.div_lt_iff_lt_mul (Nat.two_pow_pos _)]
    calc num / den < 2 ^ ((num / den).log2 + 1) := Nat.lt_log2_self
      _ ≤ 2 ^ (53 + ((num / den).log2 - 52)) := Nat.pow_le_pow_right (by decide) (by omega)
      _ = 2 * binade * 2 ^ ((num / den).log2 - 52) := Nat.pow_add ..
  · intro hk
    have hlarge : binade * 2 ^ ((num / den).log2 - 52) ≤ num / den := by
      have hlog : 52 + ((num / den).log2 - 52) = (num / den).log2 := by omega
      have hpos : num / den ≠ 0 := by
        intro hzero
        simp [hzero] at hk
      calc binade * 2 ^ ((num / den).log2 - 52) = 2 ^ (52 + ((num / den).log2 - 52)) :=
            (Nat.pow_add 2 52 _).symm
        _ = 2 ^ (num / den).log2 := by rw [hlog]
        _ ≤ num / den := Nat.log2_self_le hpos
    obtain ⟨hlow, -⟩ := divRound_bounds num (den * 2 ^ ((num / den).log2 - 52))
    rw [← Nat.div_div_eq_div_mul] at hlow
    refine ⟨Nat.le_trans ((Nat.le_div_iff_mul_le (Nat.two_pow_pos _)).2 hlarge) hlow, ?_⟩
    exact Nat.le_trans (Nat.mul_le_mul_right _ hlarge) (Nat.div_mul_le_self num den)

/-- Within one spacing of magnitudes the middles are those of the quotient. -/
theorem isBelowMiddle_add_iff (hden : 0 < den) (hk : 0 < k → binade ≤ d) (hd : d < 2 * binade) :
    IsBelowMiddle num den (k * binade + d) ↔ divRound num (den * 2 ^ k) ≤ d := by
  have hunits (c : Nat) (hc : d ≤ c) (hc' : c ≤ 2 * binade) :
      unitsOfRank (k * binade + c) = c * 2 ^ k := by
    rcases Nat.eq_zero_or_pos k with rfl | hpos
    · rw [Nat.zero_mul, Nat.zero_add, unitsOfRank_of_le hc', Nat.pow_zero, Nat.mul_one]
    · exact unitsOfRank_add (Nat.le_trans (hk hpos) hc) hc'
  have hmiddle : middle (k * binade + d) * den = (2 * d + 1) * (den * 2 ^ k) := by
    rw [middle, Nat.add_assoc, hunits d (Nat.le_refl d) hd.le, hunits (d + 1) (Nat.le_succ d) hd]
    ring
  have hparity : (k * binade + d) % 2 = d % 2 := by
    unfold binade
    omega
  rw [IsBelowMiddle, hmiddle, hparity, divRound_le_iff (Nat.mul_pos hden (Nat.two_pow_pos k))]

theorem isBelowMiddle_rankOfRatio (hden : 0 < den) :
    IsBelowMiddle num den (rankOfRatio num den) := by
  obtain ⟨k, d, hrank, hround, hd, hk⟩ := rankOfRatio_eq num den
  rw [hrank]
  rcases Nat.lt_or_eq_of_le hd with hlt | rfl
  · exact (isBelowMiddle_add_iff hden (fun hpos => (hk hpos).1) hlt).2 hround.ge
  · -- the end of a binade is the start of the next one, where magnitudes stand twice as far apart
    have hnext : k * binade + 2 * binade = (k + 1) * binade + binade := by ring
    have hpos : 0 < den * 2 ^ k := Nat.mul_pos hden (Nat.two_pow_pos k)
    have hbelow := (divRound_le_iff hpos).1 hround.ge
    have hdouble : (2 * binade + 1) * (den * 2 ^ (k + 1)) =
        (2 * (2 * binade) + 1) * (den * 2 ^ k) + den * 2 ^ k := by ring
    rw [hnext, isBelowMiddle_add_iff hden (fun _ => Nat.le_refl _) (by decide),
      divRound_le_iff (Nat.mul_pos hden (Nat.two_pow_pos _)), hdouble]
    omega

theorem not_isBelowMiddle_of_lt (hden : 0 < den) (h : r < rankOfRatio num den) :
    ¬IsBelowMiddle num den r := by
  intro hbelow
  obtain ⟨k, d, hrank, hround, hd, hk⟩ := rankOfRatio_eq num den
  rcases Nat.eq_zero_or_pos d with hzero | hpos
  · -- the first magnitude of all has none below it
    have hbinade : ¬binade ≤ d := by rw [hzero]; decide
    have hfirst : k = 0 := Nat.eq_zero_of_not_pos fun hk' => hbinade (hk hk').1
    rw [hrank, hzero, hfirst] at h
    omega
  · by_cases hstart : 0 < k ∧ d = binade
    · -- below the start of a binade magnitudes stand half as far apart
      obtain ⟨hpos, hstart⟩ := hstart
      obtain ⟨l, rfl⟩ := Nat.exists_eq_add_of_lt hpos
      have hlast : r ≤ l * binade + (2 * binade - 1) := by
        rw [hrank, hstart, Nat.zero_add, Nat.succ_mul] at h
        omega
      have hround' := (isBelowMiddle_add_iff hden (fun _ => by decide) (by decide)).1
        (hbelow.mono hden hlast)
      have hlarge : 2 * binade ≤ num / (den * 2 ^ l) := by
        rw [Nat.le_div_iff_mul_le (Nat.mul_pos hden (Nat.two_pow_pos l))]
        calc 2 * binade * (den * 2 ^ l) = binade * 2 ^ (0 + l + 1) * den := by ring
          _ ≤ num := (hk hpos).2
      have hlow := (divRound_bounds num (den * 2 ^ l)).1
      omega
    · have hprevious : r ≤ k * binade + (d - 1) := by omega
      have hround' := (isBelowMiddle_add_iff hden
        (fun hk' => by have := (hk hk').1; omega) (by omega)).1 (hbelow.mono hden hprevious)
      omega

/-- A ratio is rounded to a rank or below it exactly if it is below the middle above that rank. -/
theorem rankOfRatio_le_iff (hden : 0 < den) :
    rankOfRatio num den ≤ r ↔ IsBelowMiddle num den r := by
  constructor
  · intro h
    exact (isBelowMiddle_rankOfRatio hden).mono hden h
  · intro h
    exact Nat.le_of_not_lt fun hlt => not_isBelowMiddle_of_lt hden hlt h

theorem rankOfRatio_le (hden : 0 < den) (h : num ≤ unitsOfRank r * den) :
    rankOfRatio num den ≤ r := by
  have hstep : unitsOfRank r < unitsOfRank (r + 1) := unitsOfRank_strictMono (Nat.lt_succ_self r)
  have hmiddle : 2 * unitsOfRank r * den < middle r * den :=
    Nat.mul_lt_mul_of_pos_right (by unfold middle; omega) hden
  refine (rankOfRatio_le_iff hden).2 (.inl ?_)
  calc 2 * num ≤ 2 * (unitsOfRank r * den) := Nat.mul_le_mul_left 2 h
    _ = 2 * unitsOfRank r * den := (Nat.mul_assoc ..).symm
    _ < middle r * den := hmiddle

theorem le_rankOfRatio (hden : 0 < den) (h : unitsOfRank r * den ≤ num) :
    r ≤ rankOfRatio num den := by
  cases r with
  | zero => exact Nat.zero_le _
  | succ r =>
    have hstep : unitsOfRank r < unitsOfRank (r + 1) := unitsOfRank_strictMono (Nat.lt_succ_self r)
    have hmiddle : middle r * den < 2 * unitsOfRank (r + 1) * den :=
      Nat.mul_lt_mul_of_pos_right (by unfold middle; omega) hden
    have hlt : middle r * den < 2 * num :=
      calc middle r * den < 2 * unitsOfRank (r + 1) * den := hmiddle
        _ = 2 * (unitsOfRank (r + 1) * den) := Nat.mul_assoc ..
        _ ≤ 2 * num := Nat.mul_le_mul_left 2 h
    refine Nat.lt_of_not_le fun hle => ?_
    have hbelow := (rankOfRatio_le_iff hden).1 hle
    unfold IsBelowMiddle at hbelow
    omega

/-- A magnitude is its own nearest one. -/
theorem rankOfRatio_unitsOfRank (hden : 0 < den) : rankOfRatio (unitsOfRank r * den) den = r :=
  Nat.le_antisymm (rankOfRatio_le hden (Nat.le_refl _)) (le_rankOfRatio hden (Nat.le_refl _))

end DuplexRpc.Binary64
