import DuplexRpc.Client.Sending

/-!
Calls. A call waits for an open link, takes an id, registers, sends its request and waits for the
outcome. However it ends, its guard clears the table.
-/
namespace DuplexRpc

namespace CallSpec

def requestText (spec : CallSpec) (id : String) : String :=
  (Request.make (some id) spec.method spec.params).wire

def deadline (spec : CallSpec) (config : Config) : Duration :=
  spec.timeout.getD config.requestTimeout

def heartbeat (config : Config) (generation : Generation) : CallSpec :=
  ⟨Protocol.heartbeatMethod, .empty, some config.heartbeatTimeout, some (.generation generation)⟩

end CallSpec

namespace Client

def signalled (c : Client) (spec : CallSpec) : Bool := spec.signal.any c.shared.isCancelled

/-- What the status lets a call do; none while the link is being opened. -/
def admission (status : Status) : Option (Next CallPhase (Option Outcome)) :=
  match status with
  | .opened => some (.phase .allocate)
  | .closed => some (.over (some (.error .clientClosed)))
  | .connecting | .reconnecting => none

def leave (c : Client) (registration : Nat) : Client :=
  c.update fun s =>
    { s with pending := (s.pending.dropReceiver registration).dropGuard registration }

def callStep (c : Client) (t : TaskId) (spec : CallSpec) (choice : Choice) :
    CallPhase → Option (Client × Next CallPhase (Option Outcome))
  | .start =>
    match choice with
    | .run =>
      if Text.isBlank spec.method then some (c, .over (some (.error Registry.blankMethod)))
      else some (c, .phase .checkSignal)
    | _ => none
  | .checkSignal =>
    match choice with
    | .run =>
      if c.signalled spec then some (c, .over (some (.error .cancelled)))
      else some (c, .phase .readStatus)
    | _ => none
  | .readStatus =>
    match choice with
    | .run => some (c, (admission c.shared.status).getD (.phase .awaitOpen))
    | _ => none
  | .awaitOpen =>
    match choice with
    | .settled => (admission c.shared.status).map (c, ·)
    | .elapsed =>
      if (admission c.shared.status).isSome then none
      else some (c, .over (some (.error .connectionClosed)))
    | .cancelled =>
      if c.signalled spec then some (c, .over (some (.error .cancelled))) else none
    | .dropped => some (c, .over none)
    | _ => none
  | .allocate =>
    match choice with
    | .run =>
      let n := c.shared.issued + 1
      some (c.update fun s => { s with issued := n }, .phase (.register (Shared.callId n)))
    | _ => none
  | .register id =>
    match choice with
    | .run =>
      match c.shared.pending.register id with
      | .ok (n, pending) =>
        some (c.update fun s => { s with pending }, .phase (.sending id n .request))
      | .error failure => some (c, .over (some (.error failure)))
    | _ => none
  | .sending id n p =>
    match choice with
    | .dropped =>
      if p = .request then none
      else some (c.update (·.leave t), .phase (.leaving n none))
    | choice =>
      (sendStep c t (spec.requestText id) choice p).map fun (c, next) =>
        match next with
        | .phase p => (c, .phase (.sending id n p))
        | .over (.ok ()) => (c, .phase (.awaitAnswer n))
        | .over (.error failure) => (c, .phase (.leaving n (some (.error failure))))
  | .awaitAnswer n =>
    match choice with
    | .settled =>
      match c.shared.pending.slot? n with
      | some (.answered outcome) => some (c, .phase (.leaving n (some outcome)))
      | some .closed => some (c, .phase (.leaving n (some (.error .connectionClosed))))
      | _ => none
    | .elapsed =>
      if c.shared.pending.slot? n = some .waiting then
        some (c, .phase (.leaving n (some (.error (.timeout (spec.deadline c.shared.config))))))
      else none
    | .cancelled =>
      if c.signalled spec then some (c, .phase (.leaving n (some (.error .cancelled)))) else none
    | .dropped => some (c, .phase (.leaving n none))
    | _ => none
  | .leaving n outcome =>
    match choice with
    | .run => some (c.leave n, .over outcome)
    | _ => none
  | .done _ => none

end Client
end DuplexRpc
