import DuplexRpc.Address.Basic
import DuplexRpc.Text.Cut
import DuplexRpc.Text.Quoted

/-!
Reading an address. The scheme ends at the first `://`; what follows is an authority, a path, or
both, as the scheme has it. Missing parts get the defaults of the scheme.
-/
namespace DuplexRpc.Address

/-- The text before the first `://`, or all of it. -/
def schemeText (uri : String) : String :=
  match Text.cut? schemeMark.toList uri.toList with
  | some (scheme, _) => String.ofList scheme
  | none => uri

/-- What is wrong with a text that is no address. -/
inductive Fault where
  | unknownScheme
  | missingSocketPath
  | unterminatedLiteral
  | malformedAuthority
  | invalidPort (raw : List Char)
  deriving DecidableEq, Repr

def Fault.toFailure (fault : Fault) (uri : String) : Failure :=
  match fault with
  | unknownScheme => .unsupportedScheme uri
  | missingSocketPath =>
    .invalidArgument ("unix transport requires a socket path: " ++ uri)
  | unterminatedLiteral => .invalidArgument ("unterminated IPv6 literal in " ++ uri)
  | malformedAuthority => .invalidArgument ("malformed host:port in " ++ uri)
  | invalidPort raw =>
    .invalidArgument ("invalid port " ++ Text.quoted (String.ofList raw) ++ " in " ++ uri)

def decimalValue (digits : List Char) : Nat :=
  digits.foldl (fun n c => 10 * n + (c.toNat - '0'.toNat)) 0

/-- A port number: an optional plus, then at least one digit, at most 65535. -/
def port? (raw : List Char) : Option UInt16 :=
  let digits := match raw with
    | '+' :: rest => rest
    | raw => raw
  if !digits.isEmpty && digits.all Char.isDigit && decimalValue digits < 65536 then
    some (.ofNat (decimalValue digits))
  else none

/-- A host and the text behind its colon, if there is one. A host in brackets ends at the first
closing one; any other host ends at the last colon. -/
def splitAuthority (authority : List Char) : Except Fault (List Char × Option (List Char)) :=
  match authority with
  | '[' :: literal =>
    match Text.cut? [']'] literal with
    | none => .error .unterminatedLiteral
    | some (host, []) => .ok (host, none)
    | some (host, ':' :: port) => .ok (host, some port)
    | some _ => .error .malformedAuthority
  | authority =>
    match Text.cutLast? ':' authority with
    | some (host, port) => .ok (host, some port)
    | none => .ok (authority, none)

/-- Host and port, empty ones replaced by the defaults. -/
def readAuthority (defaultPort : UInt16) (authority : List Char) :
    Except Fault (String × UInt16) := do
  let (host, raw) ← splitAuthority authority
  let host := if host.isEmpty then defaultHost else String.ofList host
  match raw with
  | none | some [] => pure (host, defaultPort)
  | some raw =>
    match port? raw with
    | some port => pure (host, port)
    | none => .error (.invalidPort raw)

/-- An empty path and the bare root stand for the default path. -/
def readPath (path : List Char) : String :=
  if path = [] ∨ path = ['/'] then defaultWsPath else String.ofList path

def read (uri : List Char) : Except Fault Address :=
  match Text.cut? schemeMark.toList uri with
  | none => .error .unknownScheme
  | some (scheme, rest) =>
    match Scheme.ofText? (String.ofList scheme) with
    | none => .error .unknownScheme
    | some .tcp => do
      let (host, port) ← readAuthority defaultTcpPort rest
      pure ⟨.tcp, host, port, "", false⟩
    | some .unix =>
      if rest.isEmpty then .error .missingSocketPath
      else .ok ⟨.unix, "", 0, String.ofList rest, false⟩
    | some .stdio => .ok ⟨.stdio, "", 0, String.ofList rest, false⟩
    | some .mem => .ok ⟨.mem, "", 0, String.ofList rest, false⟩
    | some .ws => readWeb .ws defaultWsPort false rest
    | some .wss => readWeb .wss defaultWssPort true rest
where
  /-- The authority ends at the first slash. -/
  readWeb (scheme : Scheme) (defaultPort : UInt16) (secure : Bool) (rest : List Char) :
      Except Fault Address := do
    let (host, port) ← readAuthority defaultPort (rest.takeWhile (· != '/'))
    pure ⟨scheme, host, port, readPath (rest.dropWhile (· != '/')), secure⟩

def parse (uri : String) : Except Failure Address :=
  (read uri.toList).mapError (·.toFailure uri)

end DuplexRpc.Address
