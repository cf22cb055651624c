/-!
Percent encoding of the parts of a URL: each part has its own set of characters that are written as
the bytes of their encoding.
-/
namespace DuplexRpc.Url

def hexUpper (n : Nat) : Char := (Nat.digitChar n).toUpper

def encodeByte (b : UInt8) : List Char := ['%', hexUpper (b.toNat / 16), hexUpper (b.toNat % 16)]

/-- Controls, and everything outside ASCII. -/
def isControl (c : Char) : Bool := c.toNat < 0x20 || 0x7f ≤ c.toNat

def percentEncode (escaped : List Char) (s : List Char) : List Char :=
  s.flatMap fun c =>
    if isControl c || escaped.contains c then (String.utf8EncodeChar c).flatMap encodeByte else [c]

def fragmentSet : List Char := [' ', '"', '<', '>', '\x60']

def pathSet : List Char := fragmentSet ++ ['#', '?', '{', '}']

def userSet : List Char := pathSet ++ ['/', ':', ';', '=', '@', '[', '\\', ']', '^', '|']

/-- The query of a URL whose scheme is known. -/
def querySet : List Char := [' ', '"', '#', '<', '>', '\'']

/-- The query of any other URL. -/
def plainQuerySet : List Char := [' ', '"', '#', '<', '>']

def hexValue? (c : Char) : Option Nat :=
  if c.isDigit then some (c.toNat - '0'.toNat)
  else if 'a' ≤ c.toLower ∧ c.toLower ≤ 'f' then some (c.toLower.toNat - 'a'.toNat + 10)
  else none

def percentDecode : List Char → List UInt8
  | '%' :: a :: b :: rest =>
    match hexValue? a, hexValue? b with
    | some high, some low => .ofNat (16 * high + low) :: percentDecode rest
    | _, _ => .ofNat '%'.toNat :: percentDecode (a :: b :: rest)
  | c :: rest => String.utf8EncodeChar c ++ percentDecode rest
  | [] => []

/-- The decoded text, if its bytes are one. -/
def percentDecodeText? (s : List Char) : Option (List Char) :=
  (String.fromUTF8? ⟨(percentDecode s).toArray⟩).map String.toList

end DuplexRpc.Url
