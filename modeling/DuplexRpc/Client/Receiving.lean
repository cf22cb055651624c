import DuplexRpc.Client.Calling
import DuplexRpc.Client.Reconnecting

/-!
Serving a generation. The receiver handles one frame after the other, handlers included, and takes
the generation down when the link ends; the heart probes the peer and ends the link when a probe
fails. Nobody drops a probe.
-/
namespace DuplexRpc.Client

/-- Takes the generation out of the link, unless someone else has. -/
def disconnectStep (c : Client) (t : TaskId) (generation : Generation) (choice : Choice) :
    DisconnectPhase → Option (Client × Next DisconnectPhase Unit)
  | .detach =>
    match choice with
    | .run =>
      match c.shared.link.installed with
      | some installed =>
        if c.shared.link.generation ≠ generation then some (c, .over ())
        else
          some (c.update fun s =>
            { s with link := { s.link with installed := none, receiver := none, heart := none } },
            .phase (.signal installed))
      | none => some (c, .over ())
    | _ => none
  | .signal installed =>
    match choice with
    | .run => some (c.update (·.cancel (.generation installed)), .phase .readClosed)
    | _ => none
  | .readClosed =>
    match choice with
    | .run => some (c, .phase (if c.shared.closed then .request true else .publish))
    | _ => none
  | .publish =>
    match choice with
    | .run =>
      some (c.update fun s => { s with status := .reconnecting }, .phase (.request false))
    | _ => none
  | .request closed =>
    match choice with
    | .run => some (c.update (·.request t), .phase (.lock closed))
    | _ => none
  | .lock closed =>
    match choice with
    | .run =>
      if !c.holds t then none
      else
        some (c.update fun s =>
          let sink := if s.outbound.sink = some generation then none else s.outbound.sink
          { s with outbound := { s.outbound with sink } }.release, .phase (.fail closed))
    | _ => none
  | .fail closed =>
    match choice with
    | .run =>
      some (c.update Shared.failAll, if closed then .over () else .phase (.starting .checkClosed))
    | _ => none
  | .starting p =>
    (c.startStep choice p).map fun (c, next) =>
      match next with
      | .phase p => (c, .phase (.starting p))
      | .over () => (c, .over ())

/-- What one text frame starts. -/
def receiveText (c : Client) (text : String) : Client × ReceivePhase :=
  match Envelope.parse text with
  | none => (c, .idle)
  | some (.response r) =>
    (c.update fun s => { s with pending := r.settle s.pending }, .idle)
  | some (.request r) =>
    match r.verdict c.shared.registry with
    | .ignore => (c, .idle)
    | .reply response => (c, .replying response .request)
    | .handle =>
      match c.shared.registry.call r.method r.params with
      | some (call, result, registry) =>
        (c.update fun s => { s with registry, calls := s.calls ++ [call] }, .handling r.id result)
      | none => (c, .idle)

def receiveStep (c : Client) (t : TaskId) (generation : Generation) (choice : Choice) :
    ReceivePhase → Option (Client × ReceivePhase)
  | .idle =>
    match choice with
    | .frame (.text text) => some (c.receiveText text)
    | .frame f => some (c, if f.endsLink then .disconnecting .detach else .idle)
    | .cancelled =>
      if c.shared.isCancelled (.generation generation) then some (c, .disconnecting .detach)
      else none
    | _ => none
  | .handling id result =>
    match choice with
    | .settled => some (c, id.elim .idle fun id => .replying (result.reply id) .request)
    | _ => none
  | .replying response p =>
    (c.sendStep t response.wire choice p).map fun (c, next) =>
      match next with
      | .phase p => (c, .replying response p)
      | .over _ => (c, .idle)
  | .disconnecting p =>
    (c.disconnectStep t generation choice p).map fun (c, next) =>
      match next with
      | .phase p => (c, .disconnecting p)
      | .over () => (c, .done)
  | .done => none

def heartStep (c : Client) (t : TaskId) (generation : Generation) (choice : Choice) :
    HeartPhase → Option (Client × HeartPhase)
  | .ticking =>
    match choice with
    | .elapsed => some (c, .checkClosed)
    | .cancelled =>
      if c.shared.isCancelled (.generation generation) then some (c, .done) else none
    | _ => none
  | .checkClosed =>
    match choice with
    | .run => some (c, if c.shared.closed then .done else .probing .start)
    | _ => none
  | .probing p =>
    match choice with
    | .dropped => none
    | choice =>
      (c.callStep t (.heartbeat c.shared.config generation) choice p).map fun (c, next) =>
        match next with
        | .phase p => (c, .probing p)
        | .over (some (.ok _)) => (c, .ticking)
        | .over (some (.error .cancelled)) => (c, .done)
        | .over (some (.error _)) => (c, .raise)
        | .over none => (c, .done)
  | .raise =>
    match choice with
    | .run => some (c.update (·.cancel (.generation generation)), .done)
    | _ => none
  | .done => none

end DuplexRpc.Client
