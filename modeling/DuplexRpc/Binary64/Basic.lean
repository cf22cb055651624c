/-!
Binary floating point with 53 significant bits, computed exactly in the natural numbers. A finite
magnitude is known by its rank among all finite magnitudes, and measured in units of `2 ^ -1074`,
the distance of the two smallest. Every operation is the exact one followed by one rounding to the
nearest magnitude, halves to the even rank.
-/
namespace DuplexRpc

namespace Binary64

/-- How many magnitudes there are from one power of two up to the next. -/
abbrev binade : Nat := 0x10000000000000

/-- The rank at which magnitudes stop being finite. -/
abbrev rankLimit : Nat := 2047 * binade

/-- The number one, in units. -/
abbrev one : Nat := Nat.pow 2 1074

def unitsOfRank (rank : Nat) : Nat :=
  if rank < binade then rank else (binade + rank % binade) * Nat.pow 2 (rank / binade - 1)

/-- The quotient rounded to the nearest integer, halves to the even one. -/
def divRound (num den : Nat) : Nat :=
  let quotient := num / den
  let twice := 2 * (num % den)
  if twice < den then quotient
  else if den < twice then quotient + 1
  else quotient + quotient % 2

/-- The rank nearest to `num / den` units. The magnitudes of one binade stand `2 ^ k` apart, where
`k` is what the integer part has in excess of 53 bits. -/
def rankOfRatio (num den : Nat) : Nat :=
  let k := (num / den).log2 - 52
  k * binade + divRound num (den * Nat.pow 2 k)

end Binary64

structure FiniteBinary64 where
  negative : Bool
  rank : Fin Binary64.rankLimit
  deriving DecidableEq

inductive Binary64 where
  | nan
  | infinite (negative : Bool)
  | finite (value : FiniteBinary64)
  deriving DecidableEq

namespace FiniteBinary64

def units (x : FiniteBinary64) : Nat := Binary64.unitsOfRank x.rank

def isZero (x : FiniteBinary64) : Bool := x.rank.val == 0

/-- The number of units with its sign. -/
def signedUnits (x : FiniteBinary64) : Int := if x.negative then -(x.units : Int) else x.units

def zero (negative : Bool) : FiniteBinary64 := ⟨negative, ⟨0, by decide⟩⟩

def negate (x : FiniteBinary64) : FiniteBinary64 := { x with negative := !x.negative }

end FiniteBinary64

namespace Binary64

/-- The nearest double to `num / den` units, infinite if that is out of range. -/
def ofRatio (negative : Bool) (num den : Nat) : Binary64 :=
  if h : rankOfRatio num den < rankLimit then .finite ⟨negative, ⟨rankOfRatio num den, h⟩⟩
  else .infinite negative

def ofNat (n : Nat) : Binary64 := ofRatio false (n * one) 1

def ofInt (n : Int) : Binary64 := ofRatio (n < 0) (n.natAbs * one) 1

def zero : Binary64 := .finite (.zero false)

def isFinite : Binary64 → Bool
  | .finite _ => true
  | _ => false

def finite? : Binary64 → Option FiniteBinary64
  | .finite x => some x
  | _ => none

def negate : Binary64 → Binary64
  | .nan => .nan
  | .infinite s => .infinite !s
  | .finite x => .finite x.negate

def add : Binary64 → Binary64 → Binary64
  | .nan, _ => .nan
  | _, .nan => .nan
  | .infinite s, .infinite t => if s = t then .infinite s else .nan
  | .infinite s, .finite _ => .infinite s
  | .finite _, .infinite t => .infinite t
  | .finite x, .finite y =>
    let sum := x.signedUnits + y.signedUnits
    if sum = 0 then .finite (.zero (x.negative && y.negative))
    else ofRatio (sum < 0) sum.natAbs 1

def mul : Binary64 → Binary64 → Binary64
  | .nan, _ => .nan
  | _, .nan => .nan
  | .infinite s, .infinite t => .infinite (s != t)
  | .infinite s, .finite y => if y.isZero then .nan else .infinite (s != y.negative)
  | .finite x, .infinite t => if x.isZero then .nan else .infinite (x.negative != t)
  | .finite x, .finite y => ofRatio (x.negative != y.negative) (x.units * y.units) one

def div : Binary64 → Binary64 → Binary64
  | .nan, _ => .nan
  | _, .nan => .nan
  | .infinite _, .infinite _ => .nan
  | .infinite s, .finite y => .infinite (s != y.negative)
  | .finite x, .infinite t => .finite (.zero (x.negative != t))
  | .finite x, .finite y =>
    if y.isZero then if x.isZero then .nan else .infinite (x.negative != y.negative)
    else ofRatio (x.negative != y.negative) (x.units * one) y.units

/-- The order of numbers; nothing is below or above a nan, and the two zeros are equal. -/
def lt : Binary64 → Binary64 → Bool
  | .nan, _ => false
  | _, .nan => false
  | .infinite s, .infinite t => s && !t
  | .infinite s, .finite _ => s
  | .finite _, .infinite t => !t
  | .finite x, .finite y => x.signedUnits < y.signedUnits

/-- The smaller number; a nan gives way to the other operand. -/
def min : Binary64 → Binary64 → Binary64
  | .nan, y => y
  | x, .nan => x
  | x, y => if y.lt x then y else x

/-- The larger number; a nan gives way to the other operand. -/
def max : Binary64 → Binary64 → Binary64
  | .nan, y => y
  | x, .nan => x
  | x, y => if x.lt y then y else x

/-- The number brought between two bounds; a nan stays one. -/
def clamp (x low high : Binary64) : Binary64 :=
  if x.lt low then low else if high.lt x then high else x

/-- `powFrom r f n` is `r * f ^ n` by repeated squaring, one rounding after each product. -/
def powFrom (r f : Binary64) (n : Nat) : Binary64 :=
  let r' := if n % 2 = 1 then r.mul f else r
  if h : n / 2 = 0 then r' else powFrom r' (f.mul f) (n / 2)
  termination_by n
  decreasing_by omega

def pow (f : Binary64) (n : Nat) : Binary64 := powFrom (ofNat 1) f n

end Binary64
end DuplexRpc
