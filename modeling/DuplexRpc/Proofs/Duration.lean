import DuplexRpc.Duration
import DuplexRpc.Proofs.Binary64.Magnitude

/-!
Spans as numbers of seconds and back. A number of seconds is a span exactly if it is below `2 ^ 64`.
Near that limit doubles stand 2048 seconds apart, so the longest spans are rounded up to it and are
no spans any more when they are read back.
-/
namespace DuplexRpc.Duration

open Binary64

variable {n r m whole rest : Nat} {d : Duration} {v w : FiniteBinary64}

/-- A whole number in the middle of two magnitudes goes to the even one of them, here the lower. -/
theorem rankOfRatio_whole_le_iff (hmiddle : middle r = 2 * m * one) (heven : r % 2 = 0) :
    rankOfRatio (n * one) 1 ≤ r ↔ n ≤ m := by
  have hpos := one_units_pos
  rw [rankOfRatio_le_iff Nat.one_pos, IsBelowMiddle, hmiddle, Nat.mul_one]
  generalize one = unit at *
  have hscale : n * unit ≤ m * unit ↔ n ≤ m := Nat.mul_le_mul_right_iff hpos
  have htwice : 2 * m * unit = 2 * (m * unit) := Nat.mul_assoc ..
  omega

/-- Here the even one is the upper. -/
theorem rankOfRatio_whole_le_iff_lt (hmiddle : middle r = 2 * m * one) (hodd : r % 2 = 1) :
    rankOfRatio (n * one) 1 ≤ r ↔ n < m := by
  have hpos := one_units_pos
  rw [rankOfRatio_le_iff Nat.one_pos, IsBelowMiddle, hmiddle, Nat.mul_one]
  generalize one = unit at *
  have hscale : n * unit < m * unit ↔ n < m := Nat.mul_lt_mul_right hpos
  have htwice : 2 * m * unit = 2 * (m * unit) := Nat.mul_assoc ..
  omega

/-- A rest of at most one does not carry a number over a gap of more than two. -/
theorem rankOfRatio_add_le_iff (hrest : rest ≤ one)
    (hgap : unitsOfRank r + 2 * one < unitsOfRank (r + 1)) :
    rankOfRatio (unitsOfRank whole + rest) 1 ≤ r ↔ whole ≤ r := by
  constructor
  · intro h
    refine Nat.le_of_not_lt fun hlt => ?_
    have hwhole : unitsOfRank (r + 1) ≤ unitsOfRank whole := unitsOfRank_strictMono.monotone hlt
    have hle : r + 1 ≤ rankOfRatio (unitsOfRank whole + rest) 1 :=
      le_rankOfRatio Nat.one_pos (by omega)
    omega
  · intro h
    have hwhole : unitsOfRank whole ≤ unitsOfRank r := unitsOfRank_strictMono.monotone h
    refine (rankOfRatio_le_iff Nat.one_pos).2 (.inl ?_)
    unfold middle
    omega

theorem exists_ofNat (hn : n ≤ 2 ^ 64) : ∃ v, Binary64.ofNat n = .finite v ∧ v.negative = false ∧
    v.rank.val = rankOfRatio (n * one) 1 ∧ v.rank.val ≤ powerRank 64 := by
  have hle : rankOfRatio (n * one) 1 ≤ powerRank 64 := by
    refine rankOfRatio_le Nat.one_pos ?_
    rw [unitsOfRank_powerRank, Nat.mul_one]
    exact Nat.mul_le_mul_right _ hn
  exact ⟨_, ofRatio_of_lt (Nat.lt_of_le_of_lt hle (powerRank_lt (by decide))), rfl, rfl, hle⟩

theorem powerRank_zero_le (hn : 0 < n) : powerRank 0 ≤ rankOfRatio (n * one) 1 := by
  refine le_rankOfRatio Nat.one_pos ?_
  rw [unitsOfRank_powerRank_zero, Nat.mul_one]
  exact Nat.le_mul_of_pos_left _ hn

/-- A whole number of seconds. -/
def ofWhole (n : UInt64) : Duration :=
  ⟨n.toNat * nanosPerSecond, Nat.mul_lt_mul_of_pos_right n.toNat_lt (by decide)⟩

theorem exists_ofNat_nanosPerSecond : ∃ v, Binary64.ofNat nanosPerSecond = .finite v ∧
    v.negative = false ∧ v.isZero = false ∧ v.units = nanosPerSecond * one := by
  have hunits : unitsOfRank ((1074 - 23) * binade + nanosPerSecond * 2 ^ 23) =
      nanosPerSecond * one := unitsOfRank_whole (by decide) (by decide) (by decide)
  obtain ⟨v, hv, hsign, hrank, -⟩ := exists_ofNat (n := nanosPerSecond) (by decide)
  have hround : v.rank.val = (1074 - 23) * binade + nanosPerSecond * 2 ^ 23 := by
    rw [hrank, ← hunits, ← Nat.mul_one (unitsOfRank _), rankOfRatio_unitsOfRank Nat.one_pos]
  refine ⟨v, hv, hsign, isZero_eq_false Nat.one_pos ?_, ?_⟩
  · rw [hround]
    decide
  · rw [FiniteBinary64.units, hround, hunits]

/-- The rank of `2 ^ -30`, which is less than a nanosecond. -/
def tinyRank : Nat := 992 * binade + binade

theorem one_eq_tiny : one = 2 ^ 30 * unitsOfRank tinyRank := by
  rw [tinyRank]
  exact one_eq_two_pow_mul rfl

/-- The nanoseconds beyond the whole seconds are at most a second, and not nothing if there are
any. -/
theorem exists_subsecond (d : Duration) : ∃ v,
    (Binary64.ofNat d.subsecond).div (.ofNat nanosPerSecond) = .finite v ∧ v.negative = false ∧
      v.units ≤ one ∧ (0 < d.subsecond → tinyRank ≤ v.rank.val) := by
  have hsub : d.subsecond < nanosPerSecond := Nat.mod_lt _ (by decide)
  have hrange : d.subsecond ≤ 2 ^ 64 := Nat.le_trans hsub.le (by decide)
  obtain ⟨v, hv, hvsign, hvrank, -⟩ := exists_ofNat hrange
  obtain ⟨w, hw, hwsign, hzero, hden⟩ := exists_ofNat_nanosPerSecond
  have hpos : 0 < w.units := hden ▸ Nat.mul_pos (by decide) one_units_pos
  have hle : v.units ≤ w.units := by
    refine unitsOfRank_strictMono.monotone ?_
    rw [hvrank]
    refine rankOfRatio_le Nat.one_pos ?_
    rw [Nat.mul_one]
    exact Nat.le_trans (Nat.mul_le_mul_right _ hsub.le) hden.ge
  have hrank : rankOfRatio (v.units * one) w.units ≤ powerRank 0 := by
    refine rankOfRatio_le hpos ?_
    rw [unitsOfRank_powerRank_zero, Nat.mul_comm]
    exact Nat.mul_le_mul_left _ hle
  have hlt := Nat.lt_of_le_of_lt hrank (powerRank_lt (by decide))
  refine ⟨⟨false, ⟨_, hlt⟩⟩, ?_, rfl, ?_, fun hsome => ?_⟩
  · rw [hv, hw, Binary64.div, hzero, if_neg Bool.false_ne_true, hvsign, hwsign, bne_self_eq_false,
      ofRatio_of_lt hlt]
  · exact Nat.le_trans (units_le hrank) unitsOfRank_powerRank_zero.le
  · refine le_rankOfRatio hpos ?_
    have hunits : one ≤ v.units := by
      rw [← unitsOfRank_powerRank_zero]
      exact le_units (hvrank ▸ powerRank_zero_le hsome)
    have htiny : unitsOfRank tinyRank * nanosPerSecond ≤ one := by
      rw [one_eq_tiny, Nat.mul_comm]
      exact Nat.mul_le_mul_right _ (by decide)
    calc unitsOfRank tinyRank * w.units = unitsOfRank tinyRank * nanosPerSecond * one := by
          rw [hden, Nat.mul_assoc]
      _ ≤ v.units * one := Nat.mul_le_mul_right _ (Nat.le_trans htiny hunits)

theorem add_of_unsigned (hv : v.negative = false) (hw : w.negative = false) :
    (Binary64.finite v).add (.finite w) = ofRatio false (v.units + w.units) 1 := by
  rw [Binary64.add, (FiniteBinary64.IsNonneg.of_unsigned hv).signedUnits,
    (FiniteBinary64.IsNonneg.of_unsigned hw).signedUnits, hv, hw, ← Int.natCast_add]
  generalize v.units + w.units = sum
  by_cases hzero : sum = 0
  · rw [hzero, ofRatio_zero Nat.one_pos, Int.natCast_zero, if_pos rfl, Bool.and_false]
  · have hne : ¬(sum : Int) = 0 := by omega
    have hsign : decide ((sum : Int) < 0) = false := decide_eq_false (by omega)
    rw [if_neg hne, hsign, Int.natAbs_natCast]

/-- The number of seconds of a span, and where it stands among the magnitudes that matter. -/
structure HasSeconds (d : Duration) (v : FiniteBinary64) : Prop where
  toSeconds : d.toSeconds = .finite v
  unsigned : v.negative = false
  rank_le : v.rank.val ≤ powerRank 64
  below_limit : v.rank.val < powerRank 64 ↔ d.seconds < 2 ^ 64 - 1024
  upTo_half : v.rank.val ≤ powerRank 63 ↔ d.seconds ≤ 2 ^ 63 + 1024
  of_pos : 0 < d.nanos → tinyRank ≤ v.rank.val

theorem HasSeconds.nonneg (h : d.HasSeconds v) : v.IsNonneg := .of_unsigned h.unsigned

theorem HasSeconds.upTo (h : d.HasSeconds v) : d.toSeconds.UpTo (powerRank 64) :=
  ⟨v, h.toSeconds, h.nonneg, h.rank_le⟩

/-- A number of seconds is rounded up to `2 ^ 64` from `2 ^ 64 - 1024` on, and not down to `2 ^ 63`
above `2 ^ 63 + 1024`. -/
theorem exists_hasSeconds (d : Duration) : ∃ v, d.HasSeconds v := by
  have hseconds : d.seconds ≤ 2 ^ 64 := by
    refine (Nat.div_lt_of_lt_mul ?_).le
    rw [Nat.mul_comm]
    exact d.nanos_lt
  obtain ⟨whole, hwhole, hwholesign, hwholerank, hwholele⟩ := exists_ofNat hseconds
  obtain ⟨part, hpart, hpartsign, hpartle, hpartpos⟩ := exists_subsecond d
  have hsum {r : Nat} (hgap : unitsOfRank r + 2 * one < unitsOfRank (r + 1)) :
      rankOfRatio (whole.units + part.units) 1 ≤ r ↔ rankOfRatio (d.seconds * one) 1 ≤ r := by
    rw [← hwholerank]
    exact rankOfRatio_add_le_iff hpartle hgap
  have hle : rankOfRatio (whole.units + part.units) 1 ≤ powerRank 64 := by
    rw [hsum (gap_powerRank (by decide)), ← hwholerank]
    exact hwholele
  have hlt := Nat.lt_of_le_of_lt hle (powerRank_lt (by decide))
  refine ⟨⟨false, ⟨_, hlt⟩⟩, ?_, rfl, hle, ?_, ?_, fun hpos => ?_⟩
  · rw [toSeconds, hwhole, hpart, add_of_unsigned hwholesign hpartsign, ofRatio_of_lt hlt]
  · rw [Nat.lt_iff_le_pred (powerRank_pos 64), hsum (gap_belowRank (by decide))]
    exact rankOfRatio_whole_le_iff_lt (middle_belowRank (by decide) (by decide)) (by decide)
  · rw [hsum (gap_powerRank (by decide))]
    exact rankOfRatio_whole_le_iff (middle_powerRank (by decide) (by decide)) (by decide)
  · refine le_rankOfRatio Nat.one_pos ?_
    rw [Nat.mul_one]
    by_cases hsub : 0 < d.subsecond
    · exact Nat.le_trans (le_units (hpartpos hsub)) (Nat.le_add_left _ _)
    · have hsome : 0 < d.seconds := by
        unfold seconds subsecond nanosPerSecond at *
        omega
      have hrank : tinyRank ≤ whole.rank.val :=
        Nat.le_trans (by decide) (hwholerank ▸ powerRank_zero_le hsome)
      exact Nat.le_trans (le_units hrank) (Nat.le_add_right _ _)

/-- The whole nanoseconds nearest to a number of seconds. -/
def nearestNanos (v : FiniteBinary64) : Nat := divRound (v.units * nanosPerSecond) one

theorem nearestNanos_le (h : v.units ≤ n * one) : nearestNanos v ≤ n * nanosPerSecond := by
  have hunits : v.units * nanosPerSecond ≤ n * one * nanosPerSecond := Nat.mul_le_mul_right _ h
  refine (divRound_le_iff one_units_pos).2 (.inl ?_)
  have hpos := one_units_pos
  generalize one = unit at *
  have hproduct : n * unit * nanosPerSecond = n * nanosPerSecond * unit := by ring
  have hodd : (2 * (n * nanosPerSecond) + 1) * unit = 2 * (n * nanosPerSecond * unit) + unit := by
    ring
  omega

theorem le_nearestNanos (h : n * one ≤ v.units) : n * nanosPerSecond ≤ nearestNanos v := by
  refine Nat.le_trans ((Nat.le_div_iff_mul_le one_units_pos).2 ?_) (divRound_bounds _ _).1
  calc n * nanosPerSecond * one = n * one * nanosPerSecond := Nat.mul_right_comm ..
    _ ≤ v.units * nanosPerSecond := Nat.mul_le_mul_right _ h

theorem one_lt_tiny : one < 2 * (unitsOfRank tinyRank * nanosPerSecond) := by
  have hpos := one_units_pos
  rw [one_eq_tiny] at hpos ⊢
  generalize unitsOfRank tinyRank = tiny at *
  unfold nanosPerSecond
  omega

theorem nearestNanos_pos (h : tinyRank ≤ v.rank.val) : 0 < nearestNanos v := by
  have hunits : unitsOfRank tinyRank * nanosPerSecond ≤ v.units * nanosPerSecond :=
    Nat.mul_le_mul_right _ (le_units h)
  have hone := one_lt_tiny
  refine Nat.pos_of_ne_zero fun hzero => ?_
  have hround := (divRound_le_iff one_units_pos).1 (Nat.le_of_eq hzero)
  generalize unitsOfRank tinyRank = tiny at *
  generalize one = unit at *
  omega

theorem ofSeconds?_of_isNonneg (hv : v.IsNonneg) :
    ofSeconds? (.finite v) = ofNanos? (nearestNanos v) := by
  have hnonneg : ¬v.signedUnits < 0 := Int.not_lt.2 (FiniteBinary64.signedUnits_nonneg_iff.2 hv)
  rw [ofSeconds?, if_neg hnonneg, nearestNanos]

theorem exists_ofNanos? (h : n < limit) : ∃ d, ofNanos? n = some d ∧ d.nanos = n :=
  ⟨⟨n, h⟩, dif_pos h, rfl⟩

theorem nanos_of_ofNanos? (h : ofNanos? n = some d) : d.nanos = n := by
  unfold ofNanos? at h
  split at h
  · cases h
    rfl
  · cases h

theorem isSome_ofNanos?_iff : (ofNanos? n).isSome = true ↔ n < limit := by
  unfold ofNanos?
  split <;> simp [*]

theorem nearestNanos_lt_iff : nearestNanos v < limit ↔ v.rank.val < powerRank 64 := by
  constructor
  · intro h
    refine Nat.lt_of_not_le fun hle => ?_
    have hunits : 2 ^ 64 * one ≤ v.units := by
      rw [← unitsOfRank_powerRank]
      exact le_units hle
    have hnanos := le_nearestNanos hunits
    unfold limit at h
    omega
  · intro h
    have hbelow : unitsOfRank (belowRank 64) = (2 ^ 64 - 2048) * one :=
      unitsOfRank_belowRank_eq (by decide) (by decide)
    have hunits : v.units ≤ unitsOfRank (belowRank 64) := units_le (Nat.le_pred_of_lt h)
    have hnanos : nearestNanos v ≤ (2 ^ 64 - 2048) * nanosPerSecond :=
      nearestNanos_le (hbelow ▸ hunits)
    unfold limit nanosPerSecond at *
    omega

/-- A span read from many seconds is long. -/
theorem le_nanos_of_ofSeconds? {x : Binary64} (hx : x.AtLeast r) (hn : n * one ≤ unitsOfRank r)
    (h : ofSeconds? x = some d) : n * nanosPerSecond ≤ d.nanos := by
  obtain ⟨s, rfl⟩ | ⟨v, rfl, hv⟩ := hx
  · cases h
  · have hnonneg : ¬v.signedUnits < 0 := by
      intro hnegative
      rw [ofSeconds?, if_pos hnegative] at h
      cases h
    rw [ofSeconds?_of_isNonneg
      (FiniteBinary64.signedUnits_nonneg_iff.1 (Int.not_lt.1 hnonneg))] at h
    rw [nanos_of_ofNanos? h]
    exact le_nearestNanos (Nat.le_trans hn (le_units hv))

theorem ofSeconds?_of_rank_eq_zero (hv : v.rank.val = 0) :
    ofSeconds? (.finite v) = some .zero := by
  have hunits : v.units ≤ 0 * one := by
    rw [units_of_rank_eq_zero hv]
    exact Nat.zero_le _
  have hnearest : nearestNanos v = 0 := by
    have hle := nearestNanos_le hunits
    rwa [Nat.zero_mul, Nat.le_zero] at hle
  rw [ofSeconds?_of_isNonneg fun _ => hv, hnearest]
  rfl

theorem toSeconds_zero : Duration.zero.toSeconds = .zero := by decide +kernel

/-- No span but zero is read back as zero. -/
theorem ofSeconds?_toSeconds_eq_zero_iff : ofSeconds? d.toSeconds = some .zero ↔ d = .zero := by
  constructor
  · intro h
    obtain ⟨seconds, hseconds⟩ := exists_hasSeconds d
    rw [hseconds.toSeconds, ofSeconds?_of_isNonneg hseconds.nonneg] at h
    have hnearest : Duration.zero.nanos = nearestNanos seconds := nanos_of_ofNanos? h
    have hzero : d.nanos = 0 := by
      refine Nat.eq_zero_of_not_pos fun hpos => ?_
      have hnanos := nearestNanos_pos (hseconds.of_pos hpos)
      rw [← hnearest] at hnanos
      cases hnanos
    cases d
    cases hzero
    rfl
  · rintro rfl
    rw [toSeconds_zero]
    exact ofSeconds?_of_rank_eq_zero rfl

/-- Seconds below the limit are a span. -/
theorem exists_ofSeconds? (hv : v.IsNonneg) (h : v.rank.val < powerRank 64) :
    ∃ d, ofSeconds? (.finite v) = some d ∧ d.nanos = nearestNanos v := by
  rw [ofSeconds?_of_isNonneg hv]
  exact exists_ofNanos? (nearestNanos_lt_iff.2 h)

end DuplexRpc.Duration
