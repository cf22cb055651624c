import DuplexRpc.Duration
import DuplexRpc.Envelope.ErrorObject
import DuplexRpc.Json.Document

/-!
Why an operation fails. One type covers addresses, the protocol, the link, calls and handlers, and
one function words every cause.
-/
namespace DuplexRpc

inductive Failure where
  | invalidArgument (message : String)
  | unsupportedScheme (uri : String)
  /-- a failure of the system, with the report it was made from if there is one -/
  | io (message : String) (source : Option String)
  | protocol (message : String)
  /-- a text that is no JSON, with the report it was made from if there is one -/
  | json (message : String) (source : Option String)
  | webSocket (message : String)
  | notConnected
  | timeout (after : Duration)
  | connectionClosed
  | clientClosed
  | cancelled
  /-- the error of a failed response, or one a handler asks to be sent as it is -/
  | rpc (error : ErrorObject)
  | other (message : String)
  deriving DecidableEq

namespace Failure

def message : Failure → String
  | invalidArgument message => "Invalid argument: " ++ message
  | unsupportedScheme uri => "Unsupported transport URI: " ++ uri
  | io message _ => "IO error: " ++ message
  | protocol message => "Protocol error: " ++ message
  | json message _ => "JSON error: " ++ message
  | webSocket message => "WebSocket error: " ++ message
  | notConnected => "websocket is not connected"
  | timeout after => "Request timeout after " ++ after.text
  | connectionClosed => "holon-rpc connection closed"
  | clientClosed => "holon-rpc client closed"
  | cancelled => "Operation was cancelled"
  | rpc e => "rpc error " ++ toString e.code.toInt ++ ": " ++ e.message
  | other message => message

/-- The report a failure was made from. -/
def source : Failure → Option String
  | io _ source => source
  | json _ source => source
  | _ => none

def ofSystem (report : String) : Failure := io report (some report)

def ofParseError (e : Json.ParseError) : Failure := json e.message (some e.message)

/-- The failure may pass when the link is opened again. -/
def isRetryable : Failure → Bool
  | timeout _ => true
  | connectionClosed => true
  | notConnected => true
  | webSocket _ => true
  | _ => false

/-- How the failure is reported to the peer: an explicit error as it is, any other as the fault of
a handler. -/
def toErrorObject : Failure → ErrorObject
  | rpc e => e
  | f => .plain Protocol.handlerFault f.message

end Failure
end DuplexRpc
