import DuplexRpc.Client.Closing
import DuplexRpc.Client.Opening

/-!
Connecting. A target that is no web socket URL is refused before anything changes. Otherwise the
client is closed, then opened under the new epoch, and closed again if that fails.
-/
namespace DuplexRpc.Client

def isWebSocket (url : Url) : Bool := url.scheme == "ws" || url.scheme == "wss"

def endpointOf (target : Target) : Except Failure Url :=
  if Text.isBlank target.text then .error (.invalidArgument "url is required")
  else match target.parsed with
    | .error report => .error (.invalidArgument ("invalid url: " ++ report))
    | .ok url => if isWebSocket url then .ok url else .error (.unsupportedScheme target.text)

def connectStep (c : Client) (t : TaskId) (choice : Choice) :
    ConnectPhase → Option (Client × ConnectPhase)
  | .start target =>
    match choice with
    | .run =>
      match endpointOf target with
      | .ok url => some (c, .closing url .mark)
      | .error failure => some (c, .done (.error failure))
    | _ => none
  | .closing url p =>
    (c.closeStep t choice p).map fun (c, next) =>
      match next with
      | .phase p => (c, .closing url p)
      | .over () => (c, .setEndpoint url)
  | .setEndpoint url =>
    match choice with
    | .run =>
      some (c.update fun s => { s with link := { s.link with endpoint := some url } }, .readEpoch)
    | _ => none
  | .readEpoch =>
    match choice with
    | .run => some (c, .resetAttempts c.shared.epoch)
    | _ => none
  | .resetAttempts epoch =>
    match choice with
    | .run => some (c.update fun s => { s with attempts := 0 }, .unclose epoch)
    | _ => none
  | .unclose epoch =>
    match choice with
    | .run => some (c.update fun s => { s with closed := false }, .publish epoch)
    | _ => none
  | .publish epoch =>
    match choice with
    | .run =>
      some (c.update fun s => { s with status := .connecting }, .opening epoch .checkClosed)
    | _ => none
  | .opening epoch p =>
    (c.openStep t epoch choice p).map fun (c, next) =>
      match next with
      | .phase p => (c, .opening epoch p)
      | .over (.ok ()) => (c, .done (.ok ()))
      | .over (.error failure) => (c, .failing .mark failure)
  | .failing p failure =>
    (c.closeStep t choice p).map fun (c, next) =>
      match next with
      | .phase p => (c, .failing p failure)
      | .over () => (c, .done (.error failure))
  | .done _ => none

end DuplexRpc.Client
