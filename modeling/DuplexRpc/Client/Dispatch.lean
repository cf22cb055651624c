import DuplexRpc.Envelope.Classify
import DuplexRpc.Pending
import DuplexRpc.Registry

/-!
What a client does with one frame. A response settles the call of its id. A request gets at most one
reply, and none without an id; only a well-formed request of a registered method reaches a handler.
All else is junk and leaves no trace.
-/
namespace DuplexRpc

/-- What a request calls for. -/
inductive Verdict where
  | ignore
  | reply (response : Response)
  /-- the handler of the method is called, and answers if there is an id -/
  | handle
  deriving DecidableEq

namespace Request

/-- An error for a request that wants a reply. -/
def refuse (r : Request) (error : ErrorObject) : Verdict :=
  match r.id with
  | some id => .reply (.failure id error)
  | none => .ignore

/-- The id is missing or marks a call of the peer. -/
def hasServerId (r : Request) : Bool :=
  match r.id with
  | some id =>
    (Envelope.idKey id).any fun key => Protocol.serverMark.toList.isPrefixOf key.toList
  | none => true

def verdict (r : Request) (registry : Registry) : Verdict :=
  if r.version ≠ Protocol.version ∨ Text.isBlank r.method then
    r.refuse (.invalidRequest "invalid request")
  else if r.method = Protocol.heartbeatMethod then
    match r.id with
    | some id => .reply (.success id .empty)
    | none => .ignore
  else if !r.hasServerId then
    r.refuse (.invalidRequest "server request id must start with 's'")
  else if registry.has r.method then .handle
  else r.refuse (.methodNotFound r.method)

end Request

/-- The reply to a handled request. -/
def HandlerResult.reply (id : Json) : HandlerResult → Response
  | returned value => .success id value
  | failed failure => .failure id failure.toErrorObject
  | broke message => .failure id (.plain Protocol.handlerFault (breakText message))

namespace Response

/-- An error counts, whatever else there is; a missing or misshapen result is the empty object. -/
def outcome (r : Response) : Outcome :=
  match r.error with
  | some error => .error (.rpc error)
  | none => .ok (r.result.getD .null).asObject

def settle (r : Response) (t : PendingTable) : PendingTable :=
  match Envelope.idKey r.id with
  | some id => (t.resolve id r.outcome).2
  | none => t

end Response

/-- What arrives over a link. The last three end it. -/
inductive Frame where
  | text (s : String)
  | binary
  | close
  | fault
  | ended
  deriving DecidableEq, Repr

def Frame.endsLink : Frame → Bool
  | text _ => false
  | binary => false
  | _ => true

/-- The handlers and waiting calls of a client, and what it has done about the frames so far. -/
structure Exchange where
  registry : Registry
  pending : PendingTable
  replies : List Response
  calls : List HandlerCall

namespace Exchange

def reply (x : Exchange) (r : Response) : Exchange := { x with replies := x.replies ++ [r] }

def handle (x : Exchange) (r : Request) : Exchange :=
  match x.registry.call r.method r.params with
  | some (call, result, registry) =>
    let x := { x with registry, calls := x.calls ++ [call] }
    match r.id with
    | some id => x.reply (result.reply id)
    | none => x
  | none => x

def receive (x : Exchange) : Envelope → Exchange
  | .response r => { x with pending := r.settle x.pending }
  | .request r =>
    match r.verdict x.registry with
    | .ignore => x
    | .reply response => x.reply response
    | .handle => x.handle r

/-- One frame, handled to its end. -/
def frame (x : Exchange) : Frame → Exchange
  | .text s => (Envelope.parse s).elim x x.receive
  | _ => x

def frames (x : Exchange) (fs : List Frame) : Exchange := fs.foldl frame x

end Exchange
end DuplexRpc
