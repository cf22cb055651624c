import DuplexRpc.Failure

/-!
Transport addresses: where a program listens or dials.
-/
namespace DuplexRpc

inductive Scheme where
  | tcp | unix | stdio | mem | ws | wss
  deriving DecidableEq, Repr

namespace Scheme

def text : Scheme → String
  | tcp => "tcp"
  | unix => "unix"
  | stdio => "stdio"
  | mem => "mem"
  | ws => "ws"
  | wss => "wss"

def all : List Scheme := [tcp, unix, stdio, mem, ws, wss]

def ofText? (s : String) : Option Scheme := all.find? (·.text == s)

theorem ofText?_eq_some_iff {s : String} {scheme : Scheme} :
    ofText? s = some scheme ↔ s = scheme.text := by
  constructor
  · intro h
    have := List.find?_some h
    exact (beq_iff_eq.1 this).symm
  · rintro rfl
    cases scheme <;> decide

end Scheme

structure Address where
  scheme : Scheme
  host : String
  port : UInt16
  path : String
  secure : Bool
  deriving DecidableEq, Repr

namespace Address

def defaultText : String := "tcp://:9090"
def defaultHost : String := "0.0.0.0"
def defaultTcpPort : UInt16 := 9090
def defaultWsPort : UInt16 := 80
def defaultWssPort : UInt16 := 443
def defaultWsPath : String := "/grpc"
def schemeMark : String := "://"

/-- A host with a colon is written in brackets, so that the colon of the port is the last one. -/
def bracketed (host : String) : String :=
  if host.toList.contains ':' then "[" ++ host ++ "]" else host

def portText (port : UInt16) : String := toString port.toNat

/-- The written form. Only the parts that the scheme uses are written. -/
def toUri (a : Address) : String :=
  match a.scheme with
  | .tcp => "tcp://" ++ bracketed a.host ++ ":" ++ portText a.port
  | .unix | .stdio | .mem => a.scheme.text ++ schemeMark ++ a.path
  | .ws | .wss =>
    a.scheme.text ++ schemeMark ++ bracketed a.host ++ ":" ++ portText a.port ++ a.path

/-- The members of the wire form, in their order. -/
def members (a : Address) : List (String × Json) :=
  [("scheme", .string a.scheme.text), ("host", .string a.host),
   ("port", .number (.ofUInt16 a.port)), ("path", .string a.path), ("secure", .bool a.secure)]

def wire (a : Address) : String :=
  String.ofList (Json.renderRecord (a.members.map fun (key, value) => (key, some value.render)))

end Address
end DuplexRpc
