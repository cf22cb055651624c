import DuplexRpc.Client.Task

/-!
Opening a link. The peer has to echo the subprotocol; then one section under both locks installs the
sink, the number and the tasks of a new generation, unless the client was closed or reconnected
since the epoch was read.
-/
namespace DuplexRpc.Client

def subprotocolMissing : Failure :=
  .protocol ("server did not negotiate " ++ Protocol.subprotocol ++ " subprotocol")

def endpointMissing : Failure := .invalidArgument "endpoint is not set"

def openTimeout (c : Client) : Failure := .timeout c.shared.config.connectTimeout

/-- The client is closed, or the epoch is over. -/
def isStale (c : Client) (epoch : Nat) : Bool := c.shared.closed || c.shared.epoch != epoch

/-- Puts a new generation in place of whatever is installed. -/
def install (c : Client) (epoch : Nat) : Client :=
  let s := c.shared
  let generation := s.link.generation + 1
  let receiver := c.tasks.length
  let heart := receiver + 1
  let s := s.link.installed.elim s fun old => s.cancel (.generation old)
  let link := { s.link with
    generation, installed := some generation, openedUnder := epoch
    receiver := some receiver, heart := some heart }
  { shared := { s with link, outbound := { s.outbound with sink := some generation } }
    tasks := c.tasks ++ [.receive generation .idle, .heart generation .ticking] }

def openStep (c : Client) (t : TaskId) (epoch : Nat) (choice : Choice) :
    OpenPhase → Option (Client × Next OpenPhase (Except Failure Unit))
  | .checkClosed =>
    match choice with
    | .run =>
      if c.shared.closed then some (c, .over (.error .clientClosed))
      else some (c, .phase .checkEpoch)
    | _ => none
  | .checkEpoch =>
    match choice with
    | .run =>
      if c.shared.epoch ≠ epoch then some (c, .over (.error .clientClosed))
      else some (c, .phase .readEndpoint)
    | _ => none
  | .readEndpoint =>
    match choice with
    | .run =>
      match c.shared.link.endpoint with
      | some url => some (c, .phase (.dialing url))
      | none => some (c, .over (.error endpointMissing))
    | _ => none
  | .dialing _ =>
    match choice with
    | .dialFailed failure => some (c, .over (.error failure))
    | .mismatched => some (c, .over (.error subprotocolMissing))
    | .upgraded subprotocol =>
      if subprotocol = some Protocol.subprotocol then some (c, .phase .request)
      else some (c, .phase .refusing)
    | .elapsed => some (c, .over (.error c.openTimeout))
    | _ => none
  | .refusing =>
    match choice with
    | .written _ => some (c, .over (.error subprotocolMissing))
    | .elapsed => some (c, .over (.error c.openTimeout))
    | _ => none
  | .request =>
    match choice with
    | .run => some (c.update (·.request t), .phase .lock)
    | _ => none
  | .lock =>
    match choice with
    | .run =>
      if !c.holds t then none
      else if c.isStale epoch then some (c.update Shared.release, .over (.error .clientClosed))
      else
        let next := if c.shared.link.installed.isSome then .failRetired else .resetAttempts
        some ((c.install epoch).update Shared.release, .phase next)
    | .elapsed =>
      if c.holds t then none else some (c.update (·.leave t), .over (.error c.openTimeout))
    | _ => none
  | .failRetired =>
    match choice with
    | .run => some (c.update Shared.failAll, .phase .resetAttempts)
    | _ => none
  | .resetAttempts =>
    match choice with
    | .run => some (c.update fun s => { s with attempts := 0 }, .phase .publish)
    | _ => none
  | .publish =>
    match choice with
    | .run => some (c.update fun s => { s with status := .opened }, .over (.ok ()))
    | _ => none

end DuplexRpc.Client
