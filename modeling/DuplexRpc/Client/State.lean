import DuplexRpc.Client.Dispatch
import DuplexRpc.Config
import DuplexRpc.Url.Basic

/-!
The state of a client, which all its tasks share. A link lives for one generation; its number is
never used again. Calls, heartbeats and replies write through one outbound slot, whose lock is
granted in the order of the requests.
-/
namespace DuplexRpc

abbrev TaskId := Nat

/-- The number of a link. It is counted in 64 bits, without a check; but each number takes an
opening or a close, and a million of these a second would go on for half a million years, so the
bound is left out. -/
abbrev Generation := Nat

inductive Status where
  | closed | connecting | opened | reconnecting
  deriving DecidableEq, Repr

def Status.text : Status → String
  | closed => "Closed"
  | connecting => "Connecting"
  | opened => "Open"
  | reconnecting => "Reconnecting"

/-- What can be cancelled: a token of the user, or everything that serves one generation. -/
inductive Signal where
  | token (number : Nat)
  | generation (generation : Generation)
  deriving DecidableEq, Repr

structure Link where
  endpoint : Option Url
  generation : Generation
  /-- the generation whose tasks are to be cancelled when the link ends; none without a link -/
  installed : Option Generation
  /-- the epoch under which the last generation was opened -/
  openedUnder : Nat
  receiver : Option TaskId
  heart : Option TaskId
  deriving DecidableEq

/-- The slot for the sink of a generation, and its lock. -/
structure Outbound where
  sink : Option Generation
  holder : Option TaskId
  /-- who waits for the lock, the first one next -/
  queue : List TaskId
  deriving DecidableEq

namespace Outbound

/-- Takes the lock, or a place in its queue. -/
def request (o : Outbound) (t : TaskId) : Outbound :=
  match o.holder with
  | none => { o with holder := some t }
  | some _ => { o with queue := o.queue ++ [t] }

/-- Hands the lock to the next in the queue. -/
def release (o : Outbound) : Outbound :=
  { o with holder := o.queue.head?, queue := o.queue.tail }

/-- Gives up the lock or the place in its queue. -/
def leave (o : Outbound) (t : TaskId) : Outbound :=
  if o.holder = some t then o.release else { o with queue := o.queue.filter (· != t) }

def isHeldBy (o : Outbound) (t : TaskId) : Bool := o.holder == some t

end Outbound

inductive Content where
  | text (s : String)
  | close (code : Nat) (reason : String)
  deriving DecidableEq, Repr

/-- What has been written to the sink of a generation, and by which task. -/
structure Sent where
  generation : Generation
  writer : TaskId
  content : Content
  deriving DecidableEq, Repr

structure Shared where
  config : Config
  registry : Registry
  pending : PendingTable
  /-- how many call ids have been given out -/
  issued : Nat
  outbound : Outbound
  link : Link
  status : Status
  /-- goes up with every close; what began under an older epoch must not install a link. Its bound
  of 64 bits is left out like that of the generations. -/
  epoch : Nat
  closed : Bool
  /-- a reconnect task runs, or is about to clear this mark -/
  reconnecting : Bool
  attempts : UInt32
  cancelled : List Signal
  sent : List Sent
  calls : List HandlerCall

namespace Shared

/-- A client that has never been connected. -/
def fresh (config : Config) : Shared :=
  { config, registry := .empty, pending := .empty, issued := 0
    outbound := ⟨none, none, []⟩, link := ⟨none, 0, none, 0, none, none⟩, status := .closed
    epoch := 0, closed := true, reconnecting := false, attempts := 0, cancelled := []
    sent := [], calls := [] }

def isCancelled (s : Shared) (signal : Signal) : Bool := s.cancelled.contains signal

def cancel (s : Shared) (signal : Signal) : Shared := { s with cancelled := signal :: s.cancelled }

def failAll (s : Shared) : Shared := { s with pending := (s.pending.failAll .connectionClosed).2 }

def request (s : Shared) (t : TaskId) : Shared := { s with outbound := s.outbound.request t }

def release (s : Shared) : Shared := { s with outbound := s.outbound.release }

def leave (s : Shared) (t : TaskId) : Shared := { s with outbound := s.outbound.leave t }

/-- The id of the call with this number, counted from one in 64 bits. -/
def callId (n : Nat) : String := Protocol.clientMark ++ toString (UInt64.ofNat n).toNat

def describe (s : Shared) : String :=
  "HolonRpcClient \x7b state: " ++ s.status.text
    ++ ", endpoint: " ++ s.link.endpoint.elim "None" (fun u => "Some(" ++ u.describe ++ ")")
    ++ ", pending: " ++ toString s.pending.size ++ " \x7d"

end Shared
end DuplexRpc
