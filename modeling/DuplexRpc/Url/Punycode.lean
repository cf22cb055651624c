/-!
Labels of domain names in ASCII. The characters outside ASCII are taken in ascending order, and each
is written as the number of positions between it and the one before, in digits of a base that adapts
to the sizes seen.
-/
namespace DuplexRpc.Url.Punycode

def base : Nat := 36
def leastThreshold : Nat := 1
def greatestThreshold : Nat := 26
def firstBias : Nat := 72
def firstCodePoint : Nat := 0x80

def digitChar (d : Nat) : Char :=
  if d < 26 then .ofNat ('a'.toNat + d) else .ofNat ('0'.toNat + d - 26)

def digitValue? (c : Char) : Option Nat :=
  if 'a' ≤ c ∧ c ≤ 'z' then some (c.toNat - 'a'.toNat)
  else if c.isDigit then some (c.toNat - '0'.toNat + 26)
  else none

def threshold (position bias : Nat) : Nat :=
  Nat.min greatestThreshold (Nat.max leastThreshold (position - bias))

/-- Divides by the span of the thresholds until the rest is small; gives the rest and the bias. -/
def settle (delta bias : Nat) : Nat × Nat :=
  if 455 < delta then settle (delta / 35) (bias + base) else (delta, bias)
  termination_by delta
  decreasing_by omega

def adapt (delta count : Nat) (first : Bool) : Nat :=
  let delta := if first then delta / 700 else delta / 2
  let (delta, bias) := settle (delta + delta / count) 0
  bias + 36 * delta / (delta + 38)

/-- The digits of one distance. The fuel bounds their number. -/
def encodeDistance (bias : Nat) : Nat → Nat → Nat → List Char
  | 0, _, _ => []
  | fuel + 1, position, q =>
    let t := threshold position bias
    if q < t then [digitChar q]
    else digitChar (t + (q - t) % (base - t)) ::
      encodeDistance bias fuel (position + base) ((q - t) / (base - t))

structure Progress where
  delta : Nat
  bias : Nat
  /-- how many characters are written already -/
  handled : Nat
  written : List Char

/-- One character of the input while code point `n` is written. -/
def advance (basic n : Nat) (p : Progress) (c : Char) : Progress :=
  if c.toNat < n then { p with delta := p.delta + 1 }
  else if c.toNat = n then
    { delta := 0
      bias := adapt p.delta (p.handled + 1) (p.handled == basic)
      handled := p.handled + 1
      written := p.written ++ encodeDistance p.bias (p.delta + 1) base p.delta }
  else p

def encode (label : List Char) : List Char :=
  let plain := label.filter (·.toNat < firstCodePoint)
  let others := ((label.map Char.toNat).filter (firstCodePoint ≤ ·)).mergeSort.eraseDups
  let start : Progress := ⟨0, firstBias, plain.length, []⟩
  let (_, done) := others.foldl (fun (n, p) m =>
    let p := { p with delta := p.delta + (m - n) * (p.handled + 1) }
    let p := label.foldl (advance plain.length m) p
    (m + 1, { p with delta := p.delta + 1 })) (firstCodePoint, start)
  plain ++ (if plain.isEmpty then [] else ['-']) ++ done.written

/-- A distance read from its digits, and the rest. -/
def decodeDistance? (bias : Nat) : Nat → Nat → Nat → List Char → Option (Nat × List Char)
  | _, _, _, [] => none
  | position, weight, value, c :: cs => do
    let d ← digitValue? c
    let t := threshold position bias
    if d < t then some (value + d * weight, cs)
    else decodeDistance? bias (position + base) (weight * (base - t)) (value + d * weight) cs

def decodeFrom? : Nat → Nat → Nat → Nat → List Char → List Char → Option (List Char)
  | 0, _, _, _, label, _ => some label
  | _ + 1, _, _, _, label, [] => some label
  | fuel + 1, bias, n, i, label, digits => do
    let (next, rest) ← decodeDistance? bias base 1 i digits
    let count := label.length + 1
    let n := n + next / count
    let place := next % count
    if n < 0x110000 ∧ ¬(0xd800 ≤ n ∧ n < 0xe000) then
      decodeFrom? fuel (adapt (next - i) count (i == 0)) n (place + 1)
        (label.insertIdx place (.ofNat n)) rest
    else none

def decode? (s : List Char) : Option (List Char) :=
  let tail := (s.reverse.takeWhile (· != '-')).reverse
  let plain := s.take (s.length - tail.length - 1)
  decodeFrom? (s.length + 1) firstBias firstCodePoint 0 plain tail

end DuplexRpc.Url.Punycode
