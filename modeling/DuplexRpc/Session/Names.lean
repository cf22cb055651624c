import DuplexRpc.Text.Invisible
import DuplexRpc.Text.LowerCase
import DuplexRpc.Url.Punycode
import DuplexRpc.Url.Reading

/-!
The parser of URLs that sessions are run with, in place of that of the library. It lacks the tables
of international names: it brings capitals and wide forms to small letters, but composes no marks,
and it refuses a label outside ASCII that needs more. A client takes the parser as it comes, so this
is no part of a client, and only runs of sessions depend on it.
-/
namespace DuplexRpc.Session.Names
open Url

/-- Characters of ASCII that no domain name may hold. -/
def isForbidden (c : Char) : Bool :=
  c.toNat ≤ 0x20 || c.toNat == 0x7f ||
    ['%', '#', '/', ':', '<', '>', '?', '@', '[', '\\', ']', '^', '|'].contains c

/-- Characters that are left out of a domain name. -/
def isIgnored (c : Char) : Bool :=
  ['\u00ad', '\u034f', '\u200b', '\u2060', '\u2064', '\ufeff'].contains c

def isFullStop (c : Char) : Bool := c == '\u3002' || c == '\uff0e' || c == '\uff61'

/-- The form of a character in which names are compared. -/
def foldChar (c : Char) : List Char :=
  if isIgnored c then []
  else if isFullStop c then ['.']
  else if 0xff01 ≤ c.toNat ∧ c.toNat ≤ 0xff5e then [(Char.ofNat (c.toNat - 0xfee0)).toLower]
  else [Text.lowerCase c]

def isAscii (c : Char) : Bool := c.toNat < 0x80

def marked (label : List Char) : Bool := label.take 4 == ['x', 'n', '-', '-']

/-- A label outside ASCII that needs no table but that of the small letters. -/
def isCovered (label : List Char) : Bool :=
  !label.all isAscii && label.flatMap foldChar == label && !label.any fun c =>
    (isAscii c && isForbidden c) || (!isAscii c && Text.isInvisible c) || c == '\ufffd'

def asciiLabel? (label : List Char) : Option (List Char) :=
  if label.all isAscii then
    if marked label then
      match Punycode.decode? (label.drop 4) with
      | some decoded => if isCovered decoded then some label else none
      | none => none
    else some label
  else if isCovered label then some (['x', 'n', '-', '-'] ++ Punycode.encode label)
  else none

def asciiDomain? (s : List Char) : Option (List Char) := do
  let folded := s.flatMap foldChar
  if folded.any fun c => isAscii c && isForbidden c then none
  else
    let labels ← (Ip.pieces '.' folded).mapM asciiLabel?
    some (['.'].intercalate labels)

def parse (text : String) : Except String Url :=
  (Url.parse asciiDomain? text).mapError Fault.message

end DuplexRpc.Session.Names
