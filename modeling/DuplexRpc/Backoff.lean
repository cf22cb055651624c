import DuplexRpc.Duration

/-!
The delays between attempts to open the link again. They grow by a factor from one attempt to the
next, up to a cap, and each is lengthened by a random part of itself. All is computed in floating
point, so a growth that leaves its range falls back to the cap.
-/
namespace DuplexRpc

structure Backoff where
  /-- the delay before the first attempt -/
  least : Duration
  /-- the cap on delays without jitter -/
  greatest : Duration
  factor : Binary64
  /-- the greatest part of a delay that is added at random -/
  jitter : Binary64
  deriving DecidableEq

namespace Backoff

/-- One tenth. -/
def tenth : Binary64 := (Binary64.ofNat 1).div (.ofNat 10)

def standard : Backoff :=
  ⟨.ofMillis 500, .ofMillis 30000, .ofNat 2, tenth⟩

def withLeast (b : Backoff) (d : Duration) : Backoff := { b with least := d }
def withGreatest (b : Backoff) (d : Duration) : Backoff := { b with greatest := d }
def withFactor (b : Backoff) (x : Binary64) : Backoff := { b with factor := x }

/-- The jitter is brought into the range from zero to one. -/
def withJitter (b : Backoff) (x : Binary64) : Backoff :=
  { b with jitter := x.clamp .zero (.ofNat 1) }

/-- The greatest exponent in use. -/
def exponentLimit : Nat := 0x7fffffff

/-- The seconds before attempt `n`, counted from zero, without jitter and cut at the cap. -/
def cappedSeconds (b : Backoff) (attempt : UInt32) : Binary64 :=
  let power := b.factor.pow (Nat.min attempt.toNat exponentLimit)
  (b.least.toSeconds.mul power).min b.greatest.toSeconds

/-- The delay without jitter; none if the seconds are out of range. -/
def baseDelay? (b : Backoff) (attempt : UInt32) : Option Duration :=
  let capped := b.cappedSeconds attempt
  if capped.isFinite then Duration.ofSeconds? (capped.max .zero) else some b.greatest

/-- The delay for one random sample from zero up to one, at least a millisecond. -/
def delay? (b : Backoff) (attempt : UInt32) (sample : Binary64) : Option Duration := do
  let base ← b.baseDelay? attempt
  let added ← Duration.ofSeconds? ((b.jitter.mul sample).mul base.toSeconds)
  let sum ← base.add? added
  pure (sum.max (.ofMillis 1))

end Backoff
end DuplexRpc
