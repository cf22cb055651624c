import DuplexRpc.Json.Literal

/-!
Documents: the structure of a JSON text before any member is given a meaning. Repeated keys and
their order are kept. A number too large for a double and a text with an unpaired surrogate are part
of the grammar but have no value; neither has anything nested more than 127 levels deep. A checked
reading refuses them where they stand, an unchecked one keeps them.
-/
namespace DuplexRpc

inductive Document where
  | null
  | bool (value : Bool)
  | number (value : Option Number)
  | string (value : Option String)
  | array (items : List Document)
  | object (members : List (Option String × Document))

namespace Json

inductive Fault where
  | endOfList | endOfObject | endOfString | endOfValue
  | expectedColon | expectedListComma | expectedObjectComma | expectedWord | expectedValue
  | badEscape | badNumber | numberOutOfRange | controlCharacter | keyNotText
  | loneSurrogate | endOfEscape | trailingComma | trailingCharacters | tooDeep
  deriving DecidableEq, Repr

def Fault.message : Fault → String
  | endOfList => "EOF while parsing a list"
  | endOfObject => "EOF while parsing an object"
  | endOfString => "EOF while parsing a string"
  | endOfValue => "EOF while parsing a value"
  | expectedColon => "expected `:`"
  | expectedListComma => "expected `,` or `]`"
  | expectedObjectComma => "expected `,` or `\x7d`"
  | expectedWord => "expected ident"
  | expectedValue => "expected value"
  | badEscape => "invalid escape"
  | badNumber => "invalid number"
  | numberOutOfRange => "number out of range"
  | controlCharacter => "control character (\\u0000-\\u001F) found while parsing a string"
  | keyNotText => "key must be a string"
  | loneSurrogate => "lone leading surrogate in hex escape"
  | endOfEscape => "unexpected end of hex escape"
  | trailingComma => "trailing comma"
  | trailingCharacters => "trailing characters"
  | tooDeep => "recursion limit exceeded"

/-- A fault and the number of bytes left behind the place at which it is reported. -/
structure Refusal where
  fault : Fault
  remaining : Nat
  deriving DecidableEq, Repr

def byteCount : List Char → Nat
  | [] => 0
  | c :: cs => c.utf8Size + byteCount cs

/-- A fault at the first byte of `s`, or at the end of the text. -/
def refuse {α : Type _} (fault : Fault) (s : List Char) : Except Refusal α :=
  .error ⟨fault, byteCount s - 1⟩

/-- A fault just before `s`. -/
def refuseBefore {α : Type _} (fault : Fault) (s : List Char) : Except Refusal α :=
  .error ⟨fault, byteCount s⟩

def isSpace (c : Char) : Bool := c == ' ' || c == '\n' || c == '\t' || c == '\r'

def skipSpace (s : List Char) : List Char := s.dropWhile isSpace

def readWord (word : List Char) (s : List Char) : Except Refusal (List Char) :=
  match word, s with
  | [], s => .ok s
  | _ :: _, [] => refuse .endOfValue []
  | w :: ws, c :: cs => if c = w then readWord ws cs else refuse .expectedWord (c :: cs)

/-- The digits at the head of a text, and what follows them. -/
def spanDigits (s : List Char) : List Char × List Char :=
  (s.takeWhile Char.isDigit, s.dropWhile Char.isDigit)

/-- At least one digit; the faults name a missing one. -/
def readDigits (s : List Char) : Except Refusal (List Char × List Char) :=
  match spanDigits s with
  | ([], []) => refuse .endOfValue []
  | ([], rest) => refuse .badNumber rest
  | digits => .ok digits

def readWhole (s : List Char) : Except Refusal (List Char × List Char) :=
  match s with
  | '0' :: rest =>
    match rest with
    | c :: _ => if c.isDigit then refuse .badNumber rest else .ok (['0'], rest)
    | [] => .ok (['0'], [])
  | s => readDigits s

def readPlaces (s : List Char) : Except Refusal (Option (List Char) × List Char) :=
  match s with
  | '.' :: rest => (readDigits rest).map fun (digits, rest) => (some digits, rest)
  | s => .ok (none, s)

def readSign : List Char → Bool × List Char
  | '+' :: rest => (false, rest)
  | '-' :: rest => (true, rest)
  | s => (false, s)

def readPower (s : List Char) : Except Refusal (Option (Bool × List Char) × List Char) :=
  match s with
  | c :: rest =>
    if c = 'e' ∨ c = 'E' then
      let (negative, rest) := readSign rest
      (readDigits rest).map fun (digits, rest) => (some (negative, digits), rest)
    else .ok (none, c :: rest)
  | [] => .ok (none, [])

/-- A number literal whose sign has been read. -/
def readLiteral (negative : Bool) (s : List Char) : Except Refusal (Literal × List Char) := do
  let (whole, s) ← readWhole s
  let (places, s) ← readPlaces s
  let (power, s) ← readPower s
  pure (⟨negative, whole, places, power⟩, s)

def readNumber (checked : Bool) (negative : Bool) (s : List Char) :
    Except Refusal (Document × List Char) := do
  let (literal, rest) ← readLiteral negative s
  match literal.value with
  | .ok n => pure (.number (some n), rest)
  | .error unread =>
    if checked then .error ⟨.numberOutOfRange, byteCount rest + unread⟩
    else pure (.number none, rest)

def hexValue? (c : Char) : Option Nat :=
  if c.isDigit then some (c.toNat - '0'.toNat)
  else if 'a' ≤ c ∧ c ≤ 'f' then some (c.toNat - 'a'.toNat + 10)
  else if 'A' ≤ c ∧ c ≤ 'F' then some (c.toNat - 'A'.toNat + 10)
  else none

def hexValues? (cs : List Char) : Option Nat :=
  cs.foldlM (fun n c => (hexValue? c).map (n * 16 + ·)) 0

/-- The four digits of an escape. -/
def readHex (s : List Char) : Except Refusal (Nat × List Char) :=
  match hexValues? (s.take 4), (s.drop 3).isEmpty with
  | some n, false => .ok (n, s.drop 4)
  | _, _ =>
    if 4 ≤ byteCount s then .error ⟨.badEscape, byteCount s - 4⟩ else refuse .endOfString []

def isLeading (n : Nat) : Bool := 0xd800 ≤ n && n ≤ 0xdbff

def isTrailing (n : Nat) : Bool := 0xdc00 ≤ n && n ≤ 0xdfff

def pairValue (leading trailing : Nat) : Char :=
  Char.ofNat (0x10000 + (leading - 0xd800) * 0x400 + (trailing - 0xdc00))

/-- The trailing half of a surrogate pair. -/
def readTrailing (s : List Char) : Except Refusal (Nat × List Char) :=
  match s with
  | [] => refuse .endOfString []
  | '\\' :: rest =>
    match rest with
    | [] => refuse .endOfString []
    | 'u' :: rest => do
      let (n, rest) ← readHex rest
      if isTrailing n then pure (n, rest) else refuseBefore .loneSurrogate rest
    | rest => refuse .endOfEscape rest
  | s => refuse .endOfEscape s

/-- The character of a numeric escape; none for an unpaired surrogate. -/
def readCodePoint (checked : Bool) (s : List Char) : Except Refusal (Option Char × List Char) := do
  let (n, rest) ← readHex s
  if isTrailing n then
    if checked then refuseBefore .loneSurrogate rest else pure (none, rest)
  else if isLeading n then
    match readTrailing rest with
    | .ok (m, rest') => pure (some (pairValue n m), rest')
    | .error refusal => if checked then .error refusal else pure (none, rest)
  else pure (some (Char.ofNat n), rest)

def plainEscape? : Char → Option Char
  | '"' => some '"'
  | '\\' => some '\\'
  | '/' => some '/'
  | 'b' => some '\x08'
  | 'f' => some '\x0c'
  | 'n' => some '\n'
  | 'r' => some '\r'
  | 't' => some '\t'
  | _ => none

/-- One character of a text, escaped or not. -/
def readChar (checked : Bool) (c : Char) (rest : List Char) :
    Except Refusal (Option Char × List Char) :=
  if c = '\\' then
    match rest with
    | [] => refuse .endOfString []
    | 'u' :: rest => readCodePoint checked rest
    | e :: rest =>
      match plainEscape? e with
      | some c => .ok (some c, rest)
      | none => refuse .badEscape (e :: rest)
  else if c.toNat < 0x20 then refuse .controlCharacter (c :: rest)
  else .ok (some c, rest)

/-- A text whose opening quote has been read. -/
def readText (checked : Bool) : Nat → List Char → Except Refusal (Option (List Char) × List Char)
  | _, [] => refuse .endOfString []
  | 0, s => refuse .endOfString s
  | fuel + 1, c :: rest =>
    if c = '"' then .ok (some [], rest)
    else do
      let (c, rest) ← readChar checked c rest
      let (cs, rest) ← readText checked fuel rest
      pure ((do pure ((← c) :: (← cs))), rest)

def readString (checked : Bool) (s : List Char) : Except Refusal (Option String × List Char) :=
  (readText checked s.length s).map fun (cs, rest) => (cs.map String.ofList, rest)

/-- The place of an item or member: behind a comma, or first. -/
def readSeparator (first : Bool) (s : List Char) (missing : Fault) :
    Except Refusal (List Char) :=
  if first then .ok s
  else match s with
    | ',' :: rest =>
      match skipSpace rest with
      | [] => refuse .endOfValue []
      | rest => .ok rest
    | s => refuse missing s

def readColon (s : List Char) : Except Refusal (List Char) :=
  match skipSpace s with
  | [] => refuse .endOfObject []
  | ':' :: rest => .ok rest
  | s => refuse .expectedColon s

mutual

def readValue (checked : Bool) : Nat → Nat → List Char → Except Refusal (Document × List Char)
  | 0, _, s => refuse .expectedValue s
  | fuel + 1, depth, s =>
    match skipSpace s with
    | [] => refuse .endOfValue []
    | 'n' :: rest => (readWord ['u', 'l', 'l'] rest).map (.null, ·)
    | 't' :: rest => (readWord ['r', 'u', 'e'] rest).map (.bool true, ·)
    | 'f' :: rest => (readWord ['a', 'l', 's', 'e'] rest).map (.bool false, ·)
    | '-' :: rest => readNumber checked true rest
    | '"' :: rest => (readString checked rest).map fun (text, rest) => (.string text, rest)
    | '[' :: rest =>
      if checked && depth == 0 then refuse .tooDeep ('[' :: rest)
      else (readItems checked fuel (depth - 1) true rest).map
        fun (items, rest) => (.array items, rest)
    | '{' :: rest =>
      if checked && depth == 0 then refuse .tooDeep ('{' :: rest)
      else (readMembers checked fuel (depth - 1) true rest).map
        fun (members, rest) => (.object members, rest)
    | c :: rest =>
      if c.isDigit then readNumber checked false (c :: rest) else refuse .expectedValue (c :: rest)

def readItems (checked : Bool) :
    Nat → Nat → Bool → List Char → Except Refusal (List Document × List Char)
  | 0, _, _, s => refuse .endOfList s
  | fuel + 1, depth, first, s =>
    match skipSpace s with
    | [] => refuse .endOfList []
    | ']' :: rest => .ok ([], rest)
    | s => do
      let s ← readSeparator first s .expectedListComma
      if !first && s.head? == some ']' then refuse .trailingComma s
      let (item, s) ← readValue checked fuel depth s
      let (items, s) ← readItems checked fuel depth false s
      pure (item :: items, s)

def readMembers (checked : Bool) :
    Nat → Nat → Bool → List Char → Except Refusal (List (Option String × Document) × List Char)
  | 0, _, _, s => refuse .endOfObject s
  | fuel + 1, depth, first, s =>
    match skipSpace s with
    | [] => refuse .endOfObject []
    | '}' :: rest => .ok ([], rest)
    | s => do
      match ← readSeparator first s .expectedObjectComma with
      | '"' :: s =>
        let (key, s) ← readString checked s
        let s ← readColon s
        let (value, s) ← readValue checked fuel depth s
        let (members, s) ← readMembers checked fuel depth false s
        pure ((key, value) :: members, s)
      | '}' :: s => refuse .trailingComma ('}' :: s)
      | s => refuse .keyNotText s

end

def maxDepth : Nat := 127

end Json

namespace Document

open Json in
/-- The document of a whole text. Every nested reading consumes a character, so twice the length
bounds their number. -/
def read (checked : Bool) (s : List Char) : Except Refusal Document := do
  let (document, rest) ← readValue checked (2 * s.length + 2) maxDepth s
  match skipSpace rest with
  | [] => pure document
  | rest => refuse .trailingCharacters rest

mutual

/-- Everything in the document has a value, within `depth` levels. -/
def isSound : Nat → Document → Bool
  | _, null => true
  | _, bool _ => true
  | _, number n => n.isSome
  | _, string s => s.isSome
  | 0, array _ => false
  | 0, object _ => false
  | depth + 1, array items => areSound depth items
  | depth + 1, object members => membersSound depth members

def areSound : Nat → List Document → Bool
  | _, [] => true
  | depth, d :: ds => d.isSound depth && areSound depth ds

def membersSound : Nat → List (Option String × Document) → Bool
  | _, [] => true
  | depth, (key, d) :: ds => key.isSome && d.isSound depth && membersSound depth ds

end

mutual

/-- The value of a document; what is not sound counts as null. -/
def value : Document → Json
  | null => .null
  | bool b => .bool b
  | number n => n.elim .null .number
  | string s => s.elim .null .string
  | array items => .array (values items)
  | object members => .ofList (memberValues members)

def values : List Document → List Json
  | [] => []
  | d :: ds => d.value :: values ds

def memberValues : List (Option String × Document) → List (String × Json)
  | [] => []
  | (key, d) :: ds => (key.getD "", d.value) :: memberValues ds

end

end Document

namespace Json

/-- Why a text is no JSON value, and where: lines count from one, columns are bytes in the line. -/
structure ParseError where
  fault : Fault
  line : Nat
  column : Nat
  deriving DecidableEq, Repr

def ParseError.message (e : ParseError) : String :=
  e.fault.message ++ " at line " ++ toString e.line ++ " column " ++ toString e.column

/-- The line and column after `offset` bytes. -/
def position (offset : Nat) (s : List Char) : Nat × Nat :=
  go offset 1 0 s
where
  go : Nat → Nat → Nat → List Char → Nat × Nat
    | _, line, column, [] => (line, column)
    | left, line, column, c :: cs =>
      if left < c.utf8Size then (line, column + left)
      else if c = '\n' then go (left - 1) (line + 1) 0 cs
      else go (left - c.utf8Size) line (column + c.utf8Size) cs

def Refusal.locate (refusal : Refusal) (s : List Char) : ParseError :=
  let (line, column) := position (byteCount s - refusal.remaining) s
  ⟨refusal.fault, line, column⟩

def parse (text : String) : Except ParseError Json :=
  match Document.read true text.toList with
  | .ok document => .ok document.value
  | .error refusal => .error (refusal.locate text.toList)

def parse? (text : String) : Option Json := (parse text).toOption

end Json
end DuplexRpc
