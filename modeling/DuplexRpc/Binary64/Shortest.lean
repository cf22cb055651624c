import DuplexRpc.Binary64.Basic

/-!
Shortest decimals. A positive double is written with the fewest significant digits that read back
to it, and among those with the nearest. Two may be equally near; then a layout tells which to take.
-/
namespace DuplexRpc.Binary64

/-- `digits * 10 ^ exponent`. -/
structure Decimal where
  digits : Nat
  exponent : Int
  deriving DecidableEq, Repr

/-- The fraction `digits * 10 ^ exponent`, in units. -/
def Decimal.ratio (d : Decimal) : Nat × Nat :=
  if 0 ≤ d.exponent then (d.digits * Nat.pow 10 d.exponent.toNat * one, 1)
  else (d.digits * one, Nat.pow 10 (-d.exponent).toNat)

def Decimal.rank (d : Decimal) : Nat := rankOfRatio d.ratio.1 d.ratio.2

/-- The decimal exponent of the leading digit of `units`. -/
def leadingExponent (units : Nat) : Int :=
  if one ≤ units then ((Nat.toDigits 10 (units / one)).length : Int) - 1
  else go 1100 1
where
  go : Nat → Nat → Int
    | 0, n => -(n : Int)
    | fuel + 1, n => if one ≤ units * Nat.pow 10 n then -(n : Int) else go fuel (n + 1)

/-- The grid point of step `10 ^ exponent` nearest to `units` among those that read back to the
given rank. Of two that are equally near it is the upper one, or the one whose last digit is
even. -/
def onGrid? (toEven : Bool) (rank units : Nat) (exponent : Int) : Option Decimal :=
  let (num, den) :=
    if 0 ≤ exponent then (units, one * Nat.pow 10 exponent.toNat)
    else (units * Nat.pow 10 (-exponent).toNat, one)
  let below : Decimal := ⟨num / den, exponent⟩
  let above : Decimal := ⟨num / den + 1, exponent⟩
  match decide (below.rank = rank), decide (above.rank = rank) with
  | true, true =>
    let twice := 2 * (num % den)
    if twice < den ∨ (twice = den ∧ toEven ∧ below.digits % 2 = 0) then some below else some above
  | true, false => some below
  | false, true => some above
  | false, false => none

/-- The first grid that has a point reading back, from one digit on. -/
def shortestFrom (toEven : Bool) (rank units : Nat) (leading : Int) : Nat → Nat → Decimal
  | 0, _ => ⟨units * Nat.pow 5 1074, -1074⟩
  | fuel + 1, n =>
    match onGrid? toEven rank units (leading - n) with
    | some d => d
    | none => shortestFrom toEven rank units leading fuel (n + 1)

def Decimal.trimFrom : Nat → Decimal → Decimal
  | 0, d => d
  | fuel + 1, d =>
    if d.digits % 10 = 0 ∧ d.digits ≠ 0 then trimFrom fuel ⟨d.digits / 10, d.exponent + 1⟩ else d

/-- The same number without trailing zeros. -/
def Decimal.trim (d : Decimal) : Decimal := d.trimFrom d.digits.log2

/-- The shortest decimal of a positive magnitude. Seventeen digits always suffice; failing that,
the whole expansion is written. -/
def shortest (toEven : Bool) (rank : Nat) : Decimal :=
  let units := unitsOfRank rank
  (shortestFrom toEven rank units (leadingExponent units) 17 0).trim

/-- Where plain decimals give way to an exponent, and how ties and exponents are written. -/
structure Layout where
  /-- the least and greatest leading exponents written plainly -/
  least : Int
  greatest : Int
  /-- a plus before exponents that are not negative -/
  plus : Bool
  /-- of two shortest decimals equally near, the one with an even last digit, not the upper one -/
  toEven : Bool

def Layout.plain (ds : List Char) (leading : Int) : List Char :=
  if leading < 0 then
    '0' :: '.' :: List.replicate (-leading - 1).toNat '0' ++ ds
  else
    let whole := leading.toNat + 1
    let padded := ds ++ List.replicate (whole - ds.length) '0'
    let places := padded.drop whole
    padded.take whole ++ '.' :: (if places.isEmpty then ['0'] else places)

def Layout.scientific (plus : Bool) (ds : List Char) (leading : Int) : List Char :=
  let mantissa := match ds with
    | [] => []
    | [d] => [d]
    | d :: places => d :: '.' :: places
  let sign := if leading < 0 then ['-'] else if plus then ['+'] else []
  mantissa ++ 'e' :: sign ++ Nat.toDigits 10 leading.natAbs

def Layout.write (layout : Layout) (x : FiniteBinary64) : List Char :=
  let magnitude :=
    if x.rank.val = 0 then ['0', '.', '0']
    else
      let d := shortest layout.toEven x.rank
      let ds := Nat.toDigits 10 d.digits
      let leading := d.exponent + ds.length - 1
      if layout.least ≤ leading ∧ leading ≤ layout.greatest then Layout.plain ds leading
      else Layout.scientific layout.plus ds leading
  if x.negative then '-' :: magnitude else magnitude

/-- Numbers in messages: plain from `0.0001` up to sixteen digits before the point. -/
def messageLayout : Layout := ⟨-4, 15, false, false⟩

def text : Binary64 → String
  | .nan => "NaN"
  | .infinite s => if s then "-inf" else "inf"
  | .finite x => String.ofList (messageLayout.write x)

end DuplexRpc.Binary64
