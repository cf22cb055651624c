import DuplexRpc.Text.Quoted
import DuplexRpc.Url.Host

/-!
Absolute URLs by their parts, and their normal form.
-/
namespace DuplexRpc

structure Url where
  scheme : String
  username : String
  password : Option String
  host : Option Url.Host
  /-- a port other than that of the scheme -/
  port : Option UInt16
  path : String
  /-- the path is a text of its own, not a list of segments -/
  opaquePath : Bool
  query : Option String
  fragment : Option String
  deriving DecidableEq

namespace Url

/-- The schemes with a host and a port of their own. -/
def defaultPort? : String → Option UInt16
  | "http" | "ws" => some 80
  | "https" | "wss" => some 443
  | "ftp" => some 21
  | _ => none

def userText (u : Url) : String :=
  if u.username = "" ∧ u.password = none then ""
  else u.username ++ u.password.elim "" (":" ++ ·) ++ "@"

/-- The normal form. -/
def text (u : Url) : String :=
  let authority := match u.host with
    | some host =>
      "//" ++ u.userText ++ host.text ++ u.port.elim "" fun p => ":" ++ toString p.toNat
    | none => ""
  u.scheme ++ ":" ++ authority ++ u.path ++ u.query.elim "" ("?" ++ ·)
    ++ u.fragment.elim "" ("#" ++ ·)

/-- The port that is dialed. -/
def effectivePort (u : Url) : UInt16 := (u.port.or (defaultPort? u.scheme)).getD 0

def quotedOption (s : Option String) : String :=
  s.elim "None" fun s => "Some(" ++ Text.quoted s ++ ")"

def hostDescription : Option Host → String
  | none => "None"
  | some (.domain name) => "Some(Domain(" ++ Text.quoted name ++ "))"
  | some (.ip (.v4 n)) => "Some(Ipv4(" ++ Ip.dottedText n ++ "))"
  | some (.ip (.v6 groups)) => "Some(Ipv6(" ++ (Ip.v6 groups).text ++ "))"

/-- The parts of the URL by name. -/
def describe (u : Url) : String :=
  "Url \x7b scheme: " ++ Text.quoted u.scheme
    ++ ", cannot_be_a_base: " ++ toString u.opaquePath
    ++ ", username: " ++ Text.quoted u.username
    ++ ", password: " ++ quotedOption u.password
    ++ ", host: " ++ hostDescription u.host
    ++ ", port: " ++ (u.port.elim "None" fun p => "Some(" ++ toString p.toNat ++ ")")
    ++ ", path: " ++ Text.quoted u.path
    ++ ", query: " ++ quotedOption u.query
    ++ ", fragment: " ++ quotedOption u.fragment ++ " \x7d"

end Url
end DuplexRpc
