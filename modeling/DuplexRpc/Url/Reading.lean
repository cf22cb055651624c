import DuplexRpc.Url.Basic
import DuplexRpc.Url.Percent

/-!
Reading an absolute URL without a base. In a URL with a known scheme a host is an address in
brackets, a dotted address whose numbers may have radix marks, or a domain name, which is brought to
ASCII. In any other URL it is an opaque text.
-/
namespace DuplexRpc.Url

inductive Fault where
  | noBase | emptyHost | badPort | badLiteral | badDotted | badDomain | badHostCharacter
  deriving DecidableEq, Repr

def Fault.message : Fault → String
  | noBase => "relative URL without a base"
  | emptyHost => "empty host"
  | badPort => "invalid port number"
  | badLiteral => "invalid IPv6 address"
  | badDotted => "invalid IPv4 address"
  | badDomain => "invalid international domain name"
  | badHostCharacter => "invalid domain character"

namespace Host

/-- The parts of a name, without an empty one at its end. -/
def parts (name : List Char) : List (List Char) :=
  let ps := Ip.pieces '.' name
  if ps.getLast? = some [] then ps.dropLast else ps

/-- The last part of the name is a number, so that the name has to be a dotted address. -/
def endsInNumber (name : List Char) : Bool :=
  match (parts name).getLast? with
  | some last => (!last.isEmpty && last.all Char.isDigit) || (Ip.radixPart? last).isSome
  | none => false

def bracketed (s : List Char) : Except Fault Host :=
  match s.getLast? with
  | some ']' =>
    match Ip.v6? s.dropLast with
    | some groups => .ok (.ip (.v6 groups))
    | none => .error .badLiteral
  | _ => .error .badLiteral

/-- A name in small letters of ASCII; none if it has no such form. What the form of an international
name is rests on tables, which are left open here. -/
abbrev NameEncoding := List Char → Option (List Char)

def ofName (toAscii : NameEncoding) (s : List Char) : Except Fault Host :=
  match (percentDecodeText? s).bind toAscii with
  | none => .error .badDomain
  | some [] => .error .emptyHost
  | some name =>
    if endsInNumber name then
      match Ip.ofRadixParts? (parts name) with
      | some n => .ok (.ip (.v4 n))
      | none => .error .badDotted
    else .ok (.domain (String.ofList name))

/-- The host of a URL with a known scheme. -/
def read (toAscii : NameEncoding) (s : List Char) : Except Fault Host :=
  match s with
  | '[' :: rest => bracketed rest
  | s => ofName toAscii s

def opaqueForbidden : List Char :=
  ['\x00', '\t', '\n', '\r', ' ', '#', '/', ':', '<', '>', '?', '@', '[', '\\', ']', '^', '|']

/-- The host of any other URL. -/
def readOpaque (s : List Char) : Except Fault Host :=
  match s with
  | '[' :: rest => bracketed rest
  | s =>
    if s.any opaqueForbidden.contains then .error .badHostCharacter
    else .ok (.domain (String.ofList (percentEncode [] s)))

end Host

def isKnown (scheme : String) : Bool := (defaultPort? scheme).isSome

def trimmed (c : Char) : Bool := c.toNat ≤ 0x20

def removed (c : Char) : Bool := c == '\t' || c == '\n' || c == '\r'

/-- The text without controls and spaces at its ends, and without tabs and line breaks. -/
def clean (s : List Char) : List Char :=
  let s := (s.dropWhile trimmed).reverse.dropWhile trimmed
  s.reverse.filter (!removed ·)

def isSchemeChar (c : Char) : Bool := c.isAlphanum || c == '+' || c == '-' || c == '.'

/-- The scheme in lower case, and what follows its colon. -/
def splitScheme? (s : List Char) : Option (String × List Char) :=
  match s.span isSchemeChar with
  | (c :: name, ':' :: rest) =>
    if c.isAlpha then some (String.ofList ((c :: name).map Char.toLower), rest) else none
  | _ => none

def endsAuthority (known : Bool) (c : Char) : Bool :=
  c == '/' || c == '?' || c == '#' || (known && c == '\\')

/-- The text before the last at-sign of an authority, if there is one, and the text behind it. -/
def splitUser (known : Bool) (s : List Char) : Option (List Char) × List Char :=
  let authority := s.takeWhile (!endsAuthority known ·)
  match Text.cutLast? '@' authority with
  | some (user, _) => (some user, s.drop (user.length + 1))
  | none => (none, s)

/-- Name and password; an empty password is left out. -/
def readUser (user : List Char) : String × Option String :=
  match Text.cut? [':'] user with
  | some (name, password) =>
    (String.ofList (percentEncode userSet name),
      if password.isEmpty then none else some (String.ofList (percentEncode userSet password)))
  | none => (String.ofList (percentEncode userSet user), none)

/-- The text of a host ends at a colon outside brackets, or with the authority. -/
def spanHost (known : Bool) : Bool → List Char → List Char × List Char
  | _, [] => ([], [])
  | inBrackets, c :: cs =>
    if (c == ':' && !inBrackets) || endsAuthority known c then ([], c :: cs)
    else
      let inBrackets := if c == '[' then true else if c == ']' then false else inBrackets
      let (host, rest) := spanHost known inBrackets cs
      (c :: host, rest)

/-- A port, if there is one, and what follows. -/
def readPort (scheme : String) (s : List Char) : Except Fault (Option UInt16 × List Char) :=
  match s with
  | ':' :: rest =>
    let (digits, rest) := rest.span Char.isDigit
    let n := Nat.ofDigitChars 10 digits 0
    let ended := match rest with
      | [] => true
      | c :: _ => endsAuthority true c
    if 65535 < n ∨ !ended then .error .badPort
    else if digits.isEmpty ∨ defaultPort? scheme = some (.ofNat n) then .ok (none, rest)
    else .ok (some (.ofNat n), rest)
  | s => .ok (none, s)

def isDriveLetter (segment : List Char) : Bool :=
  match segment with
  | [c, mark] => c.isAlpha && (mark == ':' || mark == '|')
  | _ => false

def dotText (segment : List Char) : List Char :=
  match segment with
  | '%' :: '2' :: e :: rest => if e == 'e' || e == 'E' then '.' :: dotText rest else segment
  | c :: rest => c :: dotText rest
  | [] => []

/-- Removes the last segment, unless it names a drive. -/
def dropSegment (segments : List (List Char)) : List (List Char) :=
  match segments.getLast? with
  | some last => if isDriveLetter last then segments else segments.dropLast
  | none => []

/-- Segments in order, those of one and two dots carried out. A path that ends in such a segment
ends in a slash. -/
def foldSegments (done : List (List Char)) : List (List Char) → List (List Char)
  | [] => done
  | [last] =>
    if dotText last = ['.', '.'] then dropSegment done ++ [[]]
    else if dotText last = ['.'] then done ++ [[]]
    else done ++ [last]
  | segment :: rest =>
    if dotText segment = ['.', '.'] then foldSegments (dropSegment done) rest
    else if dotText segment = ['.'] then foldSegments done rest
    else foldSegments (done ++ [segment]) rest

def pathText (segments : List (List Char)) : String :=
  String.ofList (segments.flatMap ('/' :: ·))

/-- A path of segments. In a URL with a known scheme a backslash is a slash. -/
def readPath (known : Bool) (path : List Char) : String :=
  let path := if known then path.map fun c => if c == '\\' then '/' else c else path
  let path := match path with
    | '/' :: rest => rest
    | path => path
  pathText (foldSegments [] ((Ip.pieces '/' path).map (percentEncode pathSet)))

/-- Path, query and fragment, still as they stand. -/
def splitTail (s : List Char) : List Char × Option (List Char) × Option (List Char) :=
  let (front, fragment) := match Text.cut? ['#'] s with
    | some (front, fragment) => (front, some fragment)
    | none => (s, none)
  match Text.cut? ['?'] front with
  | some (path, query) => (path, some query, fragment)
  | none => (front, none, fragment)

structure Authority where
  username : String
  password : Option String
  host : Host
  port : Option UInt16

def emptyHost : Host := .domain ""

def Authority.local : Authority := ⟨"", none, emptyHost, none⟩

def readHost (toAscii : Host.NameEncoding) (known : Bool) (s : List Char) : Except Fault Host :=
  if known then if s.isEmpty then .error .emptyHost else Host.read toAscii s
  else Host.readOpaque s

/-- The authority at the head of a text, and what follows. -/
def readAuthority (toAscii : Host.NameEncoding) (scheme : String) (s : List Char) :
    Except Fault (Authority × List Char) := do
  let known := isKnown scheme
  let (user, s) := splitUser known s
  let ended := match s with
    | [] => false
    | c :: _ => endsAuthority known c
  if user == some [] && ended then .error .emptyHost
  let (username, password) := readUser (user.getD [])
  let (name, s) := spanHost known false s
  let host ← readHost toAscii known name
  if host = emptyHost ∧ s.head? = some ':' then .error .emptyHost
  let (port, s) ← readPort scheme s
  if host = emptyHost ∧ (username ≠ "" ∨ password.isSome) then .error .emptyHost
  pure (⟨username, password, host, port⟩, s)

def assemble (scheme : String) (a : Option Authority) (known : Bool) (tail : List Char) : Url :=
  let (path, query, fragment) := splitTail tail
  { scheme
    username := a.elim "" (·.username)
    password := a.bind (·.password)
    host := a.map (·.host)
    port := a.bind (·.port)
    path := if path.isEmpty && !known then "" else readPath known path
    opaquePath := false
    query := query.map fun q =>
      String.ofList (percentEncode (if known then querySet else plainQuerySet) q)
    fragment := fragment.map fun f => String.ofList (percentEncode fragmentSet f) }

def isSlash (c : Char) : Bool := c == '/' || c == '\\'

/-- The host of a local file may be missing; a drive is part of the path. -/
def readFile (toAscii : Host.NameEncoding) (s : List Char) : Except Fault Url :=
  match s with
  | a :: b :: rest =>
    if isSlash a && isSlash b then do
      let (name, tail) := rest.span (!endsAuthority true ·)
      if name.isEmpty then pure (assemble "file" (some .local) true tail)
      else if isDriveLetter name then pure (assemble "file" (some .local) true rest)
      else
        let host ← Host.read toAscii name
        let host := if host = .domain "localhost" then emptyHost else host
        pure (assemble "file" (some { Authority.local with host }) true tail)
    else .ok (assemble "file" (some .local) true s)
  | s => .ok (assemble "file" (some .local) true s)

def read (toAscii : Host.NameEncoding) (s : List Char) : Except Fault Url :=
  match splitScheme? (clean s) with
  | none => .error .noBase
  | some ("file", rest) => readFile toAscii rest
  | some (scheme, rest) =>
    if isKnown scheme then do
      let (a, tail) ← readAuthority toAscii scheme (rest.dropWhile isSlash)
      pure (assemble scheme (some a) true tail)
    else match rest with
      | '/' :: '/' :: rest => do
        let (a, tail) ← readAuthority toAscii scheme rest
        pure (assemble scheme (some a) false tail)
      | '/' :: _ => .ok (assemble scheme none false rest)
      | rest =>
        let (path, _, _) := splitTail rest
        .ok { assemble scheme none false rest with
          path := String.ofList (percentEncode [] path), opaquePath := true }

def parse (toAscii : Host.NameEncoding) (text : String) : Except Fault Url :=
  read toAscii text.toList

end DuplexRpc.Url
