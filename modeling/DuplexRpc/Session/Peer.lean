import DuplexRpc.Client.Waiting
import DuplexRpc.Network.Basic

/-!
A peer that does what it is told. It listens at one socket, and by itself it only sends its reaction
after every text that reaches it.
-/
namespace DuplexRpc

inductive Handshake where
  /-- a valid upgrade with this subprotocol -/
  | upgrade (subprotocol : Option String)
  /-- the connection ends before a valid upgrade -/
  | hangUp
  | silent
  deriving DecidableEq, Repr

/-- What the peer reads of a request to upgrade. -/
structure UpgradeRequest where
  target : String
  subprotocol : String
  deriving DecidableEq, Repr

/-- Why no request can be made of a URL: its length is limited, and its host must not hold certain
characters. -/
def requestFault? (url : Url) : Option String :=
  let name := match url.host with
    | some (.domain name) => name
    | _ => ""
  if 65534 < url.text.utf8ByteSize then some "uri too long"
  else if name.toList.any ['"', '\x60', '\x7b', '\x7d'].contains then some "invalid uri character"
  else none

structure Peer where
  socket : Socket
  /-- the answer to the next dial, which waits as long as there is none -/
  handshake : Option Handshake
  /-- the last request that was answered by an upgrade -/
  request : Option UpgradeRequest
  /-- the generation of the last link -/
  generation : Option Generation
  /-- the peer has not ended the link -/
  alive : Bool
  /-- sent over the link and not yet read -/
  unread : List Frame
  reaction : List Frame

namespace Peer

def listening (socket : Socket) : Peer := ⟨socket, none, none, none, false, [], []⟩

def unfinished : Failure := .webSocket "WebSocket protocol error: Handshake not finished"

/-- What a dial gets to see. -/
def answer (p : Peer) : Option Choice :=
  match p.handshake with
  | some (.upgrade subprotocol) =>
    some (if subprotocol = some Protocol.subprotocol then .upgraded subprotocol else .mismatched)
  | some .hangUp => some (.dialFailed unfinished)
  | some .silent | none => none

def holds (p : Peer) (g : Generation) : Bool := p.alive && p.generation == some g

/-- How a write ends. -/
def written (p : Peer) (g : Generation) : Choice :=
  .written (if p.holds g then none else some "Trying to work with closed connection")

def next (p : Peer) (g : Generation) : Option Choice :=
  if p.generation = some g then p.unread.head?.map .frame else none

def target (url : Url) : String := url.path ++ url.query.elim "" ("?" ++ ·)

/-- A dial has ended. -/
def endDial (p : Peer) (url : Url) : Choice → Peer
  | .upgraded _ | .mismatched =>
    { p with handshake := none, request := some ⟨target url, Protocol.subprotocol⟩ }
  | _ => { p with handshake := none }

def send (p : Peer) (frames : List Frame) : Peer := { p with unread := p.unread ++ frames }

/-- Ends the link by a last frame. -/
def hangUp (p : Peer) (last : Frame) : Peer := { p.send [last] with alive := false }

/-- Takes a frame that was sent to it. -/
def receive (p : Peer) (s : Sent) : Peer :=
  if !p.holds s.generation then p
  else match s.content with
    | .text _ => p.send p.reaction
    | .close _ _ => { p with alive := false }

/-- Holds a link that was installed. -/
def hold (p : Peer) (g : Generation) : Peer :=
  { p with generation := some g, alive := true, unread := [] }

end Peer
end DuplexRpc
