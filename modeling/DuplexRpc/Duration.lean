import DuplexRpc.Binary64.Basic

/-!
Spans of time: whole nanoseconds, less than `2 ^ 64` seconds.
-/
namespace DuplexRpc

namespace Duration

abbrev nanosPerSecond : Nat := 1000000000

abbrev limit : Nat := 0x10000000000000000 * nanosPerSecond

end Duration

structure Duration where
  nanos : Nat
  nanos_lt : nanos < Duration.limit
  deriving DecidableEq

namespace Duration

def ofNanos? (n : Nat) : Option Duration := if h : n < limit then some ⟨n, h⟩ else none

def ofParts? (seconds nanos : Nat) : Option Duration := ofNanos? (seconds * nanosPerSecond + nanos)

def zero : Duration := ⟨0, by decide⟩

/-- A number of milliseconds below `2 ^ 64`. -/
def ofMillis (n : UInt64) : Duration :=
  ⟨n.toNat * 1000000, by have := n.toNat_lt; unfold limit nanosPerSecond; omega⟩

def seconds (d : Duration) : Nat := d.nanos / nanosPerSecond

/-- The nanoseconds beyond the whole seconds. -/
def subsecond (d : Duration) : Nat := d.nanos % nanosPerSecond

def add? (a b : Duration) : Option Duration := ofNanos? (a.nanos + b.nanos)

def max (a b : Duration) : Duration := if a.nanos < b.nanos then b else a

/-- The length in seconds: whole seconds and the rest are rounded apart, then added. -/
def toSeconds (d : Duration) : Binary64 :=
  (Binary64.ofNat d.seconds).add ((Binary64.ofNat d.subsecond).div (.ofNat nanosPerSecond))

/-- The span nearest to a number of seconds, halves to the even nanosecond. Negative numbers and
numbers out of range have none. -/
def ofSeconds? : Binary64 → Option Duration
  | .finite x =>
    if x.signedUnits < 0 then none
    else ofNanos? (Binary64.divRound (x.units * nanosPerSecond) Binary64.one)
  | _ => none

/-- A decimal fraction `num / 10 ^ places` without trailing zeros. -/
def decimalText (num places : Nat) : String :=
  let whole := toString (num / Nat.pow 10 places)
  let digits := Nat.toDigits 10 (num % Nat.pow 10 places)
  let padded := List.replicate (places - digits.length) '0' ++ digits
  let kept := (padded.reverse.dropWhile (· == '0')).reverse
  if num % Nat.pow 10 places = 0 then whole else whole ++ "." ++ String.ofList kept

/-- The span in the largest unit of which it holds at least one. -/
def text (d : Duration) : String :=
  if nanosPerSecond ≤ d.nanos then decimalText d.nanos 9 ++ "s"
  else if 1000000 ≤ d.nanos then decimalText d.nanos 6 ++ "ms"
  else if 1000 ≤ d.nanos then decimalText d.nanos 3 ++ "µs"
  else toString d.nanos ++ "ns"

end Duration
end DuplexRpc
