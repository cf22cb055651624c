import DuplexRpc.Json.Basic

/-!
Number literals. The digits before and after the point are gathered into one significand of at most
64 bits; what does not fit only moves the exponent. A literal with neither point nor exponent that
fits is an integer. The double is the significand times or over one power of ten, each operation
rounded once, so a long literal may come out one place beside the nearest double.
-/
namespace DuplexRpc.Json

structure Literal where
  negative : Bool
  whole : List Char
  /-- the digits after the point, if there is one -/
  places : Option (List Char)
  /-- sign and digits of the exponent, if there is one -/
  power : Option (Bool × List Char)
  deriving DecidableEq, Repr

namespace Literal

def digitValue (c : Char) : Nat := c.toNat - '0'.toNat

def significandLimit : Nat := 0x10000000000000000

def exponentLimit : Nat := 0x80000000

/-- The significand of a run of digits and how many of them it took in. -/
def gather : Nat → List Char → Nat × Nat
  | significand, [] => (significand, 0)
  | significand, c :: cs =>
    let next := significand * 10 + digitValue c
    if next < significandLimit then
      let (s, taken) := gather next cs
      (s, taken + 1)
    else (significand, 0)

/-- The exponent's digits read as a number, or how many are left unread when it leaves 32 bits. -/
def readExponent : Nat → List Char → Except Nat Nat
  | exponent, [] => .ok exponent
  | exponent, c :: cs =>
    let next := exponent * 10 + digitValue c
    if next < exponentLimit then readExponent next cs else .error cs.length

/-- Division by a power of ten, in strides of at most 308. -/
def scaleDown (x : Binary64) (exponent : Nat) : Binary64 :=
  if exponent ≤ 308 then x.div (.ofNat (Nat.pow 10 exponent))
  else if x = .zero then x
  else scaleDown (x.div (.ofNat (Nat.pow 10 308))) (exponent - 308)
  termination_by exponent
  decreasing_by omega

/-- The double of a significand and a power of ten; none if it is out of range. -/
def scale (negative : Bool) (significand : Nat) (exponent : Int) : Option FiniteBinary64 :=
  let start := Binary64.ofNat significand
  let scaled :=
    if exponent < 0 then scaleDown start (-exponent).toNat
    else if exponent ≤ 308 then start.mul (.ofNat (Nat.pow 10 exponent.toNat))
    else if significand = 0 then start
    else .infinite false
  scaled.finite?.map fun x => if negative then x.negate else x

def integral? (negative : Bool) (significand : Nat) : Option Number :=
  if negative && significand == 0 then none
  else Number.ofInt? (if negative then -(significand : Int) else significand)

/-- The number a literal stands for. One that is too large gives the count of the characters that
stand after the place where this shows. -/
def value (literal : Literal) : Except Nat Number :=
  let (significand, taken) := gather 0 literal.whole
  let dropped := literal.whole.length - taken
  match literal.places, literal.power with
  | none, none =>
    match if dropped = 0 then integral? literal.negative significand else none with
    | some n => .ok n
    | none => double significand dropped
  | places, power =>
    let (significand, taken) := gather significand (places.getD [])
    let exponent : Int := (dropped : Int) - taken
    match power with
    | none => double significand exponent
    | some (negative, digits) =>
      match readExponent 0 digits with
      | .ok power => double significand (if negative then exponent - power else exponent + power)
      | .error unread =>
        if significand != 0 && !negative then .error unread
        else .ok (.double (.zero literal.negative))
where
  double (significand : Nat) (exponent : Int) : Except Nat Number :=
    match scale literal.negative significand exponent with
    | some x => .ok (.double x)
    | none => .error 0

end Literal
end DuplexRpc.Json
