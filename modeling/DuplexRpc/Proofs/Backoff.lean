import DuplexRpc.Client.Reconnecting
import DuplexRpc.Proofs.Binary64.Powers
import DuplexRpc.Proofs.Duration

/-!
When delays can be computed, and what they are. A delay is cut at the cap, but the cap as a number of
seconds may itself be rounded up out of the range of spans, and the jitter is added after the cut. So
what decides is the cap: up to about half of the longest span every delay can be computed, above that
not every one. A growth that leaves the range of doubles does no harm to a positive least delay, but
multiplied by a least delay of zero it is no number, and the cap takes its place.
-/
namespace DuplexRpc

/-- The delay before every attempt can be computed, whatever the random sample. -/
def Backoff.Reckonable (b : Backoff) : Prop :=
  ∀ attempt sample, Client.isSample sample = true → (b.delay? attempt sample).isSome = true

namespace Backoff

open Binary64 Duration

variable {b : Backoff} {attempt : UInt32} {sample : Binary64} {base : Duration}

/-- How often the least delay is contained in the delay before an attempt, the cap apart. -/
def power (b : Backoff) (attempt : UInt32) : Binary64 :=
  b.factor.pow (Nat.min attempt.toNat exponentLimit)

/-- The seconds before an attempt as they have grown, not cut at the cap. -/
def grownSeconds (b : Backoff) (attempt : UInt32) : Binary64 :=
  b.least.toSeconds.mul (b.power attempt)

/-- The seconds that are added to a delay for a sample. -/
def addedSeconds (b : Backoff) (sample : Binary64) (base : Duration) : Binary64 :=
  (b.jitter.mul sample).mul base.toSeconds

theorem cappedSeconds_eq (b : Backoff) (attempt : UInt32) :
    b.cappedSeconds attempt = (b.grownSeconds attempt).min b.greatest.toSeconds := rfl

theorem baseDelay?_of_isFinite (h : (b.cappedSeconds attempt).isFinite = true) :
    b.baseDelay? attempt = Duration.ofSeconds? ((b.cappedSeconds attempt).max .zero) := by
  simp [baseDelay?, h]

/-- A growth to the negative infinity is not cut. -/
theorem baseDelay?_of_infinite (h : b.grownSeconds attempt = .infinite true) :
    b.baseDelay? attempt = some b.greatest := by
  obtain ⟨cap, hcap⟩ := exists_hasSeconds b.greatest
  have hinfinite : (b.cappedSeconds attempt).isFinite = false := by
    rw [cappedSeconds_eq, h, hcap.toSeconds]
    rfl
  simp [baseDelay?, hinfinite]

/-- Otherwise the base delay is the span nearest to the seconds that the cut leaves. -/
theorem baseDelay?_cases (b : Backoff) (attempt : UInt32) :
    b.grownSeconds attempt = .infinite true ∨
      ∃ cap v, b.greatest.HasSeconds cap ∧
        b.baseDelay? attempt = Duration.ofSeconds? (.finite v) ∧ v.IsNonneg ∧
        v.rank.val ≤ cap.rank.val ∧ (v.rank.val < powerRank 64 ↔
          cap.rank.val < powerRank 64 ∨
            (b.grownSeconds attempt).lt (.ofNat (2 ^ 64)) = true) := by
  obtain ⟨cap, hcap⟩ := exists_hasSeconds b.greatest
  obtain ⟨bound, hbound, hunsigned, hboundrank⟩ := exists_ofNat_two_pow (e := 64) (by decide)
  have hpos : 0 < bound.rank.val := hboundrank ▸ powerRank_pos 64
  obtain hinfinite | ⟨v, hcut⟩ :=
    exists_isCut hcap.nonneg (.of_unsigned hunsigned) hpos (b.grownSeconds attempt)
  · exact .inl hinfinite
  · have hcapped : b.cappedSeconds attempt = (b.grownSeconds attempt).min (.finite cap) := by
      rw [cappedSeconds_eq, hcap.toSeconds]
    have hfinite : (b.cappedSeconds attempt).isFinite = true := by
      rw [hcapped]
      exact hcut.isFinite
    refine .inr ⟨cap, v, hcap, ?_, hcut.nonneg, hcut.rank_le, ?_⟩
    · rw [baseDelay?_of_isFinite hfinite, hcapped, hcut.max_zero]
    · rw [← hboundrank, hbound]
      exact hcut.below_iff

/-- The base delay can be computed unless the cap is rounded up to `2 ^ 64` seconds and the growth is
not below that. -/
theorem isSome_baseDelay?_iff : (b.baseDelay? attempt).isSome = true ↔
    b.greatest.seconds < 2 ^ 64 - 1024 ∨
      (b.grownSeconds attempt).lt (.ofNat (2 ^ 64)) = true := by
  obtain hinfinite | ⟨cap, v, hcap, hbase, hv, -, hlt⟩ := b.baseDelay?_cases attempt
  · obtain ⟨bound, hbound, -⟩ := exists_ofNat_two_pow (e := 64) (by decide)
    rw [baseDelay?_of_infinite hinfinite, hinfinite, hbound]
    simp [lt]
  · rw [hbase, ofSeconds?_of_isNonneg hv, isSome_ofNanos?_iff, nearestNanos_lt_iff, hlt,
      hcap.below_limit]

/-- The samples are the numbers from zero up to the last one below one. -/
theorem isSample_iff : Client.isSample sample = true ↔ sample.UpTo (belowRank 0) := by
  obtain ⟨one, hone, hunsigned, hrank⟩ := exists_ofNat_one
  have hhigh {v : FiniteBinary64} (hv : v.IsNonneg) :
      (Binary64.finite v).lt (.ofNat 1) = true ↔ v.rank.val ≤ belowRank 0 := by
    rw [hone, lt_finite_iff, hv.signedUnits_lt_iff (.of_unsigned hunsigned), hrank,
      Nat.lt_iff_le_pred (powerRank_pos 0)]
  constructor
  · intro h
    simp only [Client.isSample, Bool.and_eq_true, Bool.not_eq_true'] at h
    obtain ⟨⟨hfinite, hlow⟩, hone⟩ := h
    cases sample with
    | finite v =>
      have hv : v.IsNonneg := lt_zero_eq_false_iff.1 hlow
      exact ⟨v, rfl, hv, (hhigh hv).1 hone⟩
    | _ => cases hfinite
  · rintro ⟨v, rfl, hv, hle⟩
    rw [Client.isSample, lt_zero_eq_false_iff.2 hv, (hhigh hv).2 hle]
    rfl

/-- A part of a part of some seconds is less than these. -/
theorem addedSeconds_upTo {e : Nat} (hjitter : b.jitter.UpTo (powerRank 0))
    (hsample : Client.isSample sample = true) (hbase : base.toSeconds.UpTo (powerRank e))
    (he : e ≤ 1023) : (b.addedSeconds sample base).UpTo (belowRank e) := by
  have hpart : (b.jitter.mul sample).UpTo (belowRank 0) := by
    refine hjitter.mul (isSample_iff.1 hsample) (by decide) ?_
    rw [unitsOfRank_powerRank_zero, Nat.mul_comm]
  have hrange : belowRank e < rankLimit := Nat.lt_of_le_of_lt (Nat.pred_le _) (powerRank_lt he)
  exact hpart.mul hbase hrange (unitsOfRank_belowRank_mul e).le

theorem delay?_of_base {added : Duration} (hbase : b.baseDelay? attempt = some base)
    (hadded : Duration.ofSeconds? (b.addedSeconds sample base) = some added) :
    (b.delay? attempt sample).isSome = true ↔ base.nanos + added.nanos < Duration.limit := by
  have hdelay : b.delay? attempt sample =
      (base.add? added).bind fun sum => some (sum.max (.ofMillis 1)) := by
    simp only [delay?, hbase]
    change ((Duration.ofSeconds? (b.addedSeconds sample base)).bind _) = _
    rw [hadded]
    rfl
  rw [hdelay, Duration.add?, ← isSome_ofNanos?_iff]
  cases Duration.ofNanos? (base.nanos + added.nanos) <;> simp

/-- What is added can always be computed. The sum can unless it is out of range. -/
theorem isSome_delay?_iff (hjitter : b.jitter.UpTo (powerRank 0))
    (hsample : Client.isSample sample = true) (hbase : b.baseDelay? attempt = some base) :
    ∃ added, Duration.ofSeconds? (b.addedSeconds sample base) = some added ∧
      ((b.delay? attempt sample).isSome = true ↔ base.nanos + added.nanos < Duration.limit) := by
  obtain ⟨seconds, hseconds⟩ := exists_hasSeconds base
  obtain ⟨v, hv, hnonneg, hle⟩ := addedSeconds_upTo hjitter hsample
    hseconds.upTo (by decide)
  obtain ⟨added, hadded, -⟩ :=
    exists_ofSeconds? hnonneg (Nat.lt_of_le_pred (powerRank_pos 64) hle)
  rw [← hv] at hadded
  exact ⟨added, hadded, delay?_of_base hbase hadded⟩

/-- Half of the longest span leaves room for what is added. -/
theorem isSome_delay?_of_le (hjitter : b.jitter.UpTo (powerRank 0))
    (hsample : Client.isSample sample = true) (hbase : b.baseDelay? attempt = some base)
    (h : base.nanos ≤ 2 ^ 63 * Duration.nanosPerSecond) :
    (b.delay? attempt sample).isSome = true := by
  obtain ⟨seconds, hseconds⟩ := exists_hasSeconds base
  have hhalf : seconds.rank.val ≤ powerRank 63 := by
    rw [hseconds.upTo_half]
    unfold Duration.seconds Duration.nanosPerSecond at *
    omega
  obtain ⟨v, hv, hnonneg, hle⟩ := addedSeconds_upTo (e := 63) hjitter hsample
    ⟨seconds, hseconds.toSeconds, hseconds.nonneg, hhalf⟩ (by decide)
  have hlt : v.rank.val < powerRank 64 := Nat.lt_of_le_of_lt hle (by decide)
  obtain ⟨added, hadded, hnearest⟩ := exists_ofSeconds? hnonneg hlt
  have hbelow : unitsOfRank (belowRank 63) = (2 ^ 63 - 1024) * one :=
    unitsOfRank_belowRank_eq (by decide) (by decide)
  have hnanos : nearestNanos v ≤ (2 ^ 63 - 1024) * Duration.nanosPerSecond :=
    nearestNanos_le (hbelow ▸ units_le hle)
  rw [← hv] at hadded
  rw [delay?_of_base hbase hadded, hnearest]
  unfold Duration.limit Duration.nanosPerSecond at *
  omega

theorem exists_baseDelay?_le (hcap : b.greatest.seconds ≤ 2 ^ 63 + 1024)
    (hgrown : b.grownSeconds attempt ≠ .infinite true) :
    ∃ base, b.baseDelay? attempt = some base ∧ base.nanos ≤ 2 ^ 63 * Duration.nanosPerSecond := by
  obtain hinfinite | ⟨cap, v, hseconds, hbase, hv, hle, -⟩ := b.baseDelay?_cases attempt
  · exact absurd hinfinite hgrown
  · have hrank : v.rank.val ≤ powerRank 63 := Nat.le_trans hle (hseconds.upTo_half.2 hcap)
    have hlt : v.rank.val < powerRank 64 := Nat.lt_of_le_of_lt hrank (by decide)
    obtain ⟨base, hspan, hnearest⟩ := exists_ofSeconds? hv hlt
    refine ⟨base, hbase.trans hspan, ?_⟩
    rw [hnearest]
    refine nearestNanos_le (Nat.le_trans (units_le hrank) ?_)
    rw [unitsOfRank_powerRank]

/-- Every delay of a policy can be computed if its cap is below `2 ^ 63` seconds and its jitter at
most one. -/
theorem reckonable (hcap : b.greatest.seconds < 2 ^ 63) (hjitter : b.jitter.UpTo (powerRank 0)) :
    b.Reckonable := by
  intro attempt sample hsample
  by_cases hgrown : b.grownSeconds attempt = .infinite true
  · refine isSome_delay?_of_le hjitter hsample (baseDelay?_of_infinite hgrown) ?_
    unfold Duration.seconds Duration.nanosPerSecond at *
    omega
  · obtain ⟨base, hbase, hle⟩ := exists_baseDelay?_le (Nat.lt_add_right 1024 hcap).le hgrown
    exact isSome_delay?_of_le hjitter hsample hbase hle

theorem standard_reckonable : standard.Reckonable := by
  have hjitter : standard.jitter.finite?.any (fun v =>
      v.negative = false ∧ v.rank.val ≤ powerRank 0) = true := by
    decide +kernel
  obtain ⟨v, hv, hfacts⟩ := Option.any_eq_true _ _ |>.1 hjitter
  obtain ⟨hsign, hrank⟩ := of_decide_eq_true hfacts
  exact reckonable (by decide) ⟨v, eq_of_finite? hv, .of_unsigned hsign, hrank⟩

end Backoff
end DuplexRpc
