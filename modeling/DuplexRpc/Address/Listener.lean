import DuplexRpc.Address.Grammar
import DuplexRpc.Network.Basic

/-!
Listeners. Only a tcp address binds a socket; for the other schemes the listener carries the address
to whatever serves it.
-/
namespace DuplexRpc

structure Listener where
  address : Address
  /-- where a tcp listener is bound -/
  socket : Option Socket
  deriving DecidableEq

/-- A network and the sockets that are bound in it. -/
structure Listening where
  network : Network
  bound : List Socket

namespace Listening

/-- Two sockets exclude each other on one port if their addresses are equal or one of them is every
address. -/
def conflict (a b : Socket) : Bool :=
  a.port == b.port && (a.ip == b.ip || a.ip.isUnspecified || b.ip.isUnspecified)

def isTaken (l : Listening) (s : Socket) : Bool := l.bound.any (conflict s)

/-- The first port handed out to sockets that ask for any. -/
def firstEphemeral : Nat := 32768

/-- A port that no bound socket has. -/
def freePort (l : Listening) : UInt16 :=
  let used := l.bound.map (·.port)
  let isFree := fun i => !used.contains (.ofNat (firstEphemeral + i))
  .ofNat (firstEphemeral + ((List.range (l.bound.length + 1)).find? isFree).getD 0)

def bindAddress (l : Listening) (host : String) : Except Failure Ip :=
  if host = "0.0.0.0" then .ok Ip.unspecified4
  else if host = "::" then .ok Ip.unspecified6
  else match l.network.resolve host with
    | .ok (ip :: _) => .ok ip
    | .ok [] => .error (.invalidArgument ("cannot resolve host " ++ host))
    | .error report => .error (.ofSystem report)

def bind (l : Listening) (ip : Ip) (port : UInt16) : Except Failure Socket :=
  let socket : Socket := ⟨ip, if port = 0 then l.freePort else port⟩
  if !l.network.canBind ip then .error (.ofSystem Network.cannotAssign)
  else if l.isTaken socket then .error (.ofSystem Network.addressInUse)
  else .ok socket

def openAt (l : Listening) (address : Address) : Except Failure (Listener × Listening) :=
  match address.scheme with
  | .tcp => do
    let ip ← l.bindAddress address.host
    let socket ← l.bind ip address.port
    pure (⟨address, some socket⟩, { l with bound := socket :: l.bound })
  | _ => .ok (⟨address, none⟩, l)

def listen (l : Listening) (uri : String) : Except Failure (Listener × Listening) := do
  l.openAt (← Address.parse uri)

end Listening
end DuplexRpc
