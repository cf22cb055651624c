import DuplexRpc.Network.Ip

/-!
The network around a program: which addresses it may bind, what names stand for, and how an attempt
to reach a host fails. A detached network has its interfaces down. There any dotted address can be
bound, but nothing can be reached.
-/
namespace DuplexRpc

/-- An address with a port. -/
structure Socket where
  ip : Ip
  port : UInt16
  deriving DecidableEq

def Socket.text (s : Socket) : String :=
  match s.ip with
  | .v4 _ => s.ip.text ++ ":" ++ toString s.port.toNat
  | .v6 _ => "[" ++ s.ip.text ++ "]:" ++ toString s.port.toNat

structure Network where
  /-- the address may be bound -/
  canBind : Ip → Bool
  /-- the report if the host cannot be reached -/
  refusal : Ip → Option String
  /-- the addresses of a name, or the report of a failed look-up -/
  names : String → Except String (List Ip)

namespace Network

def systemError (text : String) (number : Nat) : String :=
  text ++ " (os error " ++ toString number ++ ")"

def addressInUse : String := systemError "Address already in use" 98
def cannotAssign : String := systemError "Cannot assign requested address" 99
def unreachable : String := systemError "Network is unreachable" 101
def refused : String := systemError "Connection refused" 111

def embedsNul : String := "file name contained an unexpected NUL byte"

def lookupFailed : String :=
  "failed to lookup address information: Temporary failure in name resolution"

def loopback : Ip := .v4 (Ip.ofOctets 127 0 0 1)

/-- The addresses of a host: a numeric one stands for itself, any other is looked up. -/
def resolve (network : Network) (host : String) : Except String (List Ip) :=
  match Ip.parse? host.toList with
  | some ip => .ok [ip]
  | none =>
    if host.toList.contains '\x00' then .error embedsNul
    else match Ip.ofRadixParts? (Ip.pieces '.' host.toList) with
      | some n => .ok [.v4 n]
      | none => network.names host

def noAddress : String := "could not resolve to any address"

def dialAddress (network : Network) (listens : Socket → Bool) (s : Socket) : Except String Socket :=
  match network.refusal s.ip with
  | some report => .error report
  | none => if listens s then .ok s else .error refused

/-- The first address that takes a connection, or the report of the last one. -/
def dial (network : Network) (listens : Socket → Bool) : List Socket → Except String Socket
  | [] => .error noAddress
  | [s] => network.dialAddress listens s
  | s :: rest =>
    match network.dialAddress listens s with
    | .ok s => .ok s
    | .error _ => network.dial listens rest

def isDotted : Ip → Bool
  | .v4 _ => true
  | .v6 groups => (Ip.mapped? groups.toList).isSome

def detached : Network where
  canBind ip := isDotted ip || ip.isUnspecified
  refusal ip := some (if isDotted ip then unreachable else cannotAssign)
  names host := if host.toLower = "localhost" then .ok [loopback] else .error lookupFailed

end Network
end DuplexRpc
