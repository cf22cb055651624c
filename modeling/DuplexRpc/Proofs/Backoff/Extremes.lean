import DuplexRpc.Proofs.Backoff

/-!
The caps with which every delay can be computed, and the least delay of zero. A cap is harmless
exactly up to half of the longest span, whatever else a policy and its sample are. A least delay of
zero stays zero exactly as long as the power of the factor is finite.
-/
namespace DuplexRpc.Backoff

open Binary64 Duration

variable {attempt : UInt32} {base cap : Duration} {factor : FiniteBinary64}
  {jitter : Binary64}

/-- What a delay is computed from besides the cap: any least delay, a finite factor of at least one,
any number as the jitter, and a sample. -/
structure Trial where
  least : Duration
  factor : Binary64
  factor_isFinite : factor.isFinite = true
  one_le_factor : factor.lt (.ofNat 1) = false
  value : Binary64
  value_ne_nan : value ≠ .nan
  attempt : UInt32
  sample : Binary64
  isSample : Client.isSample sample = true

namespace Trial

/-- The policy that is built with a cap. -/
def policy (t : Trial) (cap : Duration) : Backoff :=
  (((standard.withLeast t.least).withGreatest cap).withFactor t.factor).withJitter t.value

theorem jitter_policy (t : Trial) (cap : Duration) :
    (t.policy cap).jitter = t.value.clamp .zero (.ofNat 1) := rfl

theorem jitter_upTo (t : Trial) (cap : Duration) : (t.policy cap).jitter.UpTo (powerRank 0) :=
  upTo_clamp t.value_ne_nan

theorem isSigned_factor (t : Trial) : t.factor.isSigned = false := by
  obtain ⟨unit, hunit, hunsigned, hrank⟩ := exists_ofNat_one
  have hpos : 0 < unit.units := by
    rw [FiniteBinary64.units, hrank, unitsOfRank_powerRank_zero]
    exact one_units_pos
  have hlow := t.one_le_factor
  have hfinite := t.factor_isFinite
  cases hfactor : t.factor with
  | finite v =>
    rw [hfactor, hunit, lt, decide_eq_false_iff_not,
      (FiniteBinary64.IsNonneg.of_unsigned hunsigned).signedUnits] at hlow
    refine Bool.eq_false_iff.2 fun hsigned => hlow ?_
    have hnegative : v.negative = true := hsigned
    rw [FiniteBinary64.signedUnits, if_pos hnegative]
    omega
  | _ =>
    rw [hfactor] at hfinite
    cases hfinite

/-- Without a minus in it the growth does not fall to the negative infinity. -/
theorem grownSeconds_ne (t : Trial) (cap : Duration) :
    (t.policy cap).grownSeconds t.attempt ≠ .infinite true := by
  obtain ⟨seconds, hseconds⟩ := exists_hasSeconds t.least
  have hleast : t.least.toSeconds.isSigned = false := by
    rw [hseconds.toSeconds]
    exact hseconds.unsigned
  have hsigned : ((t.policy cap).grownSeconds t.attempt).isSigned = false :=
    isSigned_mul hleast (isSigned_pow t.isSigned_factor _)
  intro h
  rw [h] at hsigned
  cases hsigned

/-- The least delay is the cap already, and as much again may be added. -/
def longest (cap : Duration) : Trial where
  least := cap
  factor := .ofNat 1
  factor_isFinite := upTo_ofNat_one.isFinite
  one_le_factor := lt_self (.ofNat 1)
  value := .ofNat 1
  value_ne_nan := upTo_ofNat_one.ne_nan
  attempt := 0
  sample := .finite ⟨false, ⟨belowRank 0, by decide⟩⟩
  isSample := isSample_iff.2 ⟨_, rfl, .of_unsigned rfl, Nat.le_refl _⟩

theorem value_longest (cap : Duration) : (longest cap).value = .ofNat 1 := by rw [longest]

end Trial

/-- The first attempt waits for the least delay. -/
theorem grownSeconds_zero (b : Backoff) : b.grownSeconds 0 = b.least.toSeconds := by
  obtain ⟨v, hv⟩ := exists_hasSeconds b.least
  have hpower : b.power 0 = .ofNat 1 := by
    simp [power, pow, powFrom]
  rw [grownSeconds, hpower, hv.toSeconds, mul_ofNat_one]

theorem baseDelay?_longest (cap : Duration) :
    ((Trial.longest cap).policy cap).baseDelay? 0 = Duration.ofSeconds? cap.toSeconds := by
  obtain ⟨v, hv⟩ := exists_hasSeconds cap
  have hcapped : ((Trial.longest cap).policy cap).cappedSeconds 0 = cap.toSeconds := by
    rw [cappedSeconds_eq, grownSeconds_zero]
    change cap.toSeconds.min cap.toSeconds = _
    rw [hv.toSeconds, min_finite, if_neg (Int.lt_irrefl _)]
  have hfinite : (((Trial.longest cap).policy cap).cappedSeconds 0).isFinite = true := by
    rw [hcapped, hv.toSeconds]
    rfl
  rw [baseDelay?_of_isFinite hfinite, hcapped, hv.toSeconds, max_zero_of_isNonneg hv.nonneg]

theorem atLeast_jitter_longest (cap : Duration) :
    ((Trial.longest cap).policy cap).jitter.AtLeast (powerRank 0) := by
  obtain ⟨one, hone, -, hrank⟩ := exists_ofNat_one
  rw [Trial.jitter_policy, Trial.value_longest, clamp_ofNat_one, hone]
  exact .inr ⟨one, rfl, hrank.ge⟩

/-- A span over half of the longest one is at least the next number of seconds. -/
theorem atLeast_toSeconds (h : 2 ^ 63 + 1024 < base.seconds) :
    base.toSeconds.AtLeast (powerRank 63 + 1) := by
  obtain ⟨v, hv⟩ := exists_hasSeconds base
  exact .inr ⟨v, hv.toSeconds, Nat.lt_of_not_le (mt hv.upTo_half.1 (Nat.not_le.2 h))⟩

/-- A cap over half of the longest span leaves no room for as much again. -/
theorem delay?_longest (hcap : 2 ^ 63 + 1024 < cap.seconds) :
    ((Trial.longest cap).policy cap).delay? 0 (Trial.longest cap).sample = none := by
  cases hbase : ((Trial.longest cap).policy cap).baseDelay? 0 with
  | none => simp [delay?, hbase]
  | some base =>
    have hnext : unitsOfRank (powerRank 63 + 1) = (2 ^ 63 + 2048) * one :=
      unitsOfRank_powerRank_succ_eq (by decide) (by decide)
    have hlong : (2 ^ 63 + 2048) * Duration.nanosPerSecond ≤ base.nanos :=
      le_nanos_of_ofSeconds? (atLeast_toSeconds hcap) hnext.ge
        ((baseDelay?_longest cap).symm.trans hbase)
    obtain ⟨added, hadded, hdelay⟩ :=
      isSome_delay?_iff ((Trial.longest cap).jitter_upTo cap) (Trial.longest cap).isSample hbase
    have hpart : (((Trial.longest cap).policy cap).jitter.mul (Trial.longest cap).sample).AtLeast
        (belowRank 0) := by
      refine (atLeast_jitter_longest cap).mul (.inr ⟨_, rfl, Nat.le_refl _⟩)
        (by decide) (by decide) ?_
      rw [unitsOfRank_powerRank_zero, Nat.mul_comm]
    have haddedlong : 2 ^ 63 * Duration.nanosPerSecond ≤ added.nanos := by
      have hseconds : 2 ^ 63 + 1024 < base.seconds := by
        unfold Duration.seconds Duration.nanosPerSecond at *
        omega
      refine le_nanos_of_ofSeconds? (r := powerRank 63) ?_ (unitsOfRank_powerRank 63).ge hadded
      exact hpart.mul (atLeast_toSeconds hseconds) (by decide) (by decide)
        (le_unitsOfRank_belowRank_mul 63)
    refine Option.not_isSome_iff_eq_none.1 fun hsome => ?_
    have hroom := hdelay.1 hsome
    unfold Duration.limit Duration.nanosPerSecond at *
    omega

/-- With a cap up to half of the longest span every delay can be computed, and with no other cap.
For one delay it depends on what has grown below the cap, and on whether the sum is in range; what
is added never is the obstacle. -/
theorem delays_exist_iff (cap : Duration) :
    ((∀ t : Trial, ((t.policy cap).baseDelay? t.attempt).isSome = true ∧
        ((t.policy cap).delay? t.attempt t.sample).isSome = true) ↔
      cap.seconds ≤ 2 ^ 63 + 1024) ∧
    ∀ t : Trial,
      (((t.policy cap).baseDelay? t.attempt).isSome = true ↔
        cap.seconds < 2 ^ 64 - 1024 ∨
          ((t.policy cap).grownSeconds t.attempt).lt (.ofNat (2 ^ 64)) = true) ∧
      ∀ base, (t.policy cap).baseDelay? t.attempt = some base →
        ∃ added, Duration.ofSeconds? ((t.policy cap).addedSeconds t.sample base) = some added ∧
          (((t.policy cap).delay? t.attempt t.sample).isSome = true ↔
            base.nanos + added.nanos < Duration.limit) := by
  refine ⟨⟨fun hall => ?_, fun hcap t => ?_⟩, fun t => ⟨isSome_baseDelay?_iff, fun base hbase => ?_⟩⟩
  · refine Nat.le_of_not_lt fun hlong => ?_
    have hdelay : (((Trial.longest cap).policy cap).delay? 0 (Trial.longest cap).sample).isSome =
        true := (hall (Trial.longest cap)).2
    rw [delay?_longest hlong] at hdelay
    cases hdelay
  · obtain ⟨base, hbase, hle⟩ := exists_baseDelay?_le hcap (t.grownSeconds_ne cap)
    refine ⟨by rw [hbase, Option.isSome_some], ?_⟩
    exact isSome_delay?_of_le (t.jitter_upTo cap) t.isSample hbase hle
  · exact isSome_delay?_iff (t.jitter_upTo cap) t.isSample hbase

/-- With the greatest of these caps and the longest jitter there is just room for the sum. -/
theorem delays_exist_up_to_half :
    ((Trial.longest (.ofWhole 0x8000000000000400)).policy
      (.ofWhole 0x8000000000000400)).baseDelay? 0 = some (.ofWhole 0x8000000000000000) ∧
    (((Trial.longest (.ofWhole 0x8000000000000400)).policy
      (.ofWhole 0x8000000000000400)).delay? 0
        (Trial.longest (.ofWhole 0x8000000000000400)).sample).isSome = true := by
  have hbase : ((Trial.longest (.ofWhole 0x8000000000000400)).policy
      (.ofWhole 0x8000000000000400)).baseDelay? 0 = some (.ofWhole 0x8000000000000000) := by
    rw [baseDelay?_longest]
    decide +kernel
  obtain ⟨hcap, htrial⟩ := delays_exist_iff (.ofWhole 0x8000000000000400)
  obtain ⟨added, -, hdelay⟩ := (htrial (.longest _)).2 _ hbase
  exact ⟨hbase, hdelay.2 (hdelay.1 (hcap.2 (by decide) (.longest _)).2)⟩

/-- The shortest cap that is rounded up to `2 ^ 64` seconds has no base delay; with the shortest one
over half of the longest span there is one, but not always room for the jitter. -/
theorem delays_missing_over_half :
    ((Trial.longest (.ofWhole 0xfffffffffffffc00)).policy
      (.ofWhole 0xfffffffffffffc00)).baseDelay? 0 = none ∧
    ((Trial.longest (.ofWhole 0x8000000000000401)).policy
      (.ofWhole 0x8000000000000401)).baseDelay? 0 = some (.ofWhole 0x8000000000000800) ∧
    ((Trial.longest (.ofWhole 0x8000000000000401)).policy
      (.ofWhole 0x8000000000000401)).delay? 0
        (Trial.longest (.ofWhole 0x8000000000000401)).sample = none := by
  refine ⟨?_, ?_, delay?_longest (by decide)⟩
  · rw [baseDelay?_longest]
    decide +kernel
  · rw [baseDelay?_longest]
    decide +kernel

/-- A policy whose delays grow from zero. -/
def fromZero (cap : Duration) (factor : FiniteBinary64) (jitter : Binary64) : Backoff :=
  ⟨.zero, cap, .finite factor, jitter⟩

theorem grownSeconds_fromZero :
    (fromZero cap factor jitter).grownSeconds attempt =
      Binary64.zero.mul ((fromZero cap factor jitter).power attempt) := by
  have hleast : (fromZero cap factor jitter).least.toSeconds = .zero := toSeconds_zero
  rw [grownSeconds, hleast]

/-- Zero times a finite power is zero. -/
theorem baseDelay?_fromZero_of_isFinite
    (h : ((fromZero cap factor jitter).power attempt).isFinite = true) :
    (fromZero cap factor jitter).baseDelay? attempt = some .zero := by
  obtain ⟨v, hv, hrank⟩ := exists_zero_mul h
  obtain ⟨seconds, hseconds⟩ := exists_hasSeconds cap
  have hnonneg : v.IsNonneg := fun _ => hrank
  have hcapped : (fromZero cap factor jitter).cappedSeconds attempt = .finite v := by
    have hover : ¬seconds.signedUnits < v.signedUnits := by
      rw [hseconds.nonneg.signedUnits_lt_iff hnonneg]
      omega
    rw [cappedSeconds_eq, grownSeconds_fromZero, hv]
    change (Binary64.finite v).min cap.toSeconds = _
    rw [hseconds.toSeconds, min_finite, if_neg hover]
  rw [baseDelay?_of_isFinite (by rw [hcapped]; rfl), hcapped, max_zero_of_isNonneg hnonneg,
    ofSeconds?_of_rank_eq_zero hrank]

/-- Zero times an infinite power is no number, and the cap takes its place. -/
theorem baseDelay?_fromZero_of_infinite
    (h : ((fromZero cap factor jitter).power attempt).isFinite = false) :
    (fromZero cap factor jitter).baseDelay? attempt = Duration.ofSeconds? cap.toSeconds := by
  obtain ⟨seconds, hseconds⟩ := exists_hasSeconds cap
  have hcapped : (fromZero cap factor jitter).cappedSeconds attempt = cap.toSeconds := by
    rw [cappedSeconds_eq, grownSeconds_fromZero, zero_mul_of_not_isFinite h]
    rfl
  rw [baseDelay?_of_isFinite (by rw [hcapped, hseconds.toSeconds]; rfl), hcapped,
    hseconds.toSeconds, max_zero_of_isNonneg hseconds.nonneg]

/-- A least delay of zero stays zero exactly if the power is finite, a cap of zero apart; else the
delay is the cap. The power is finite if a power of two above the factor's magnitude is, and is not
if one below is not. So up to a factor of one the delay is zero before every attempt, and with the
factor two before the first 1024 of them. -/
theorem fromZero_stays_zero_iff (cap : Duration) (factor : FiniteBinary64) (jitter : Binary64)
    (attempt : UInt32) :
    ((fromZero cap factor jitter).baseDelay? attempt = some .zero ↔
      ((fromZero cap factor jitter).power attempt).isFinite = true ∨ cap = .zero) ∧
    (((fromZero cap factor jitter).power attempt).isFinite = false →
      (fromZero cap factor jitter).baseDelay? attempt = Duration.ofSeconds? cap.toSeconds) ∧
    ∀ e,
      (factor.units ≤ 2 ^ e * one → e * min attempt.toNat exponentLimit ≤ 1023 →
        ((fromZero cap factor jitter).power attempt).isFinite = true) ∧
      (2 ^ e * one ≤ factor.units → 1024 ≤ e * min attempt.toNat exponentLimit →
        ((fromZero cap factor jitter).power attempt).isFinite = false) := by
  refine ⟨?_, baseDelay?_fromZero_of_infinite, fun e => ⟨fun hfactor he => ?_, fun hfactor he => ?_⟩⟩
  · cases hpower : ((fromZero cap factor jitter).power attempt).isFinite with
    | true => simp [baseDelay?_fromZero_of_isFinite hpower]
    | false =>
      rw [baseDelay?_fromZero_of_infinite hpower, ofSeconds?_toSeconds_eq_zero_iff]
      simp
  · refine isFinite_pow ⟨factor, rfl, ?_⟩ he
    rw [← unitsOfRank_powerRank] at hfactor
    exact unitsOfRank_strictMono.le_iff_le.1 hfactor
  · refine isFinite_pow_eq_false (.inr ⟨factor, rfl, ?_⟩) he
    rw [← unitsOfRank_powerRank] at hfactor
    exact unitsOfRank_strictMono.le_iff_le.1 hfactor

/-- The number two. -/
def two : FiniteBinary64 := ⟨false, ⟨powerRank 1, by decide⟩⟩

theorem standard_withLeast_zero :
    standard.withLeast .zero = fromZero (.ofMillis 30000) two tenth := by
  decide +kernel

/-- With the factor two it is zero up to attempt 1023, and the cap from the next one on. -/
theorem fromZero_two_stays_zero :
    (fromZero (.ofMillis 30000) two tenth).baseDelay? 1023 = some .zero ∧
    (fromZero (.ofMillis 30000) two tenth).baseDelay? 1024 =
      Duration.ofSeconds? (Duration.ofMillis 30000).toSeconds := by
  obtain ⟨hzero, -, hpower⟩ := fromZero_stays_zero_iff (.ofMillis 30000) two tenth 1023
  obtain ⟨-, hcap, hpower'⟩ := fromZero_stays_zero_iff (.ofMillis 30000) two tenth 1024
  have hunits : two.units = 2 ^ 1 * one := unitsOfRank_powerRank 1
  exact ⟨hzero.2 (.inl ((hpower 1).1 hunits.le (by decide))),
    hcap ((hpower' 1).2 hunits.ge (by decide))⟩

/-- With the standard factor and cap a least delay of zero jumps to the cap. -/
theorem standard_withLeast_zero_jumps :
    (standard.withLeast .zero).baseDelay? 1024 = some (.ofMillis 30000) := by
  have hunits : two.units = 2 ^ 1 * one := unitsOfRank_powerRank 1
  have htwo : (Binary64.finite two).AtLeast (powerRank 1) := .inr ⟨two, rfl, Nat.le_refl _⟩
  have hpower : ((fromZero (.ofMillis 30000) two tenth).power 1024).isFinite = false :=
    isFinite_pow_eq_false htwo (by decide)
  rw [standard_withLeast_zero, baseDelay?_fromZero_of_infinite hpower]
  decide +kernel

end DuplexRpc.Backoff
