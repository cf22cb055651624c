import DuplexRpc.Client.Opening

/-!
Opening the link again after it was lost. One task at a time does so, with growing delays, until the
link is open or the epoch is over. A delay that cannot be computed breaks the task off with its mark
still set.
-/
namespace DuplexRpc.Client

def startStep (c : Client) (choice : Choice) :
    StartPhase → Option (Client × Next StartPhase Unit)
  | .checkClosed =>
    match choice with
    | .run => some (c, if c.shared.closed then .over () else .phase .claim)
    | _ => none
  | .claim =>
    match choice with
    | .run =>
      if c.shared.reconnecting then some (c, .over ())
      else some (c.update fun s => { s with reconnecting := true }, .phase .readEpoch)
    | _ => none
  | .readEpoch =>
    match choice with
    | .run => some (c.spawn (.reconnect c.shared.epoch .checkClosed), .over ())
    | _ => none

/-- A random sample is a number from zero up to one, one excluded. -/
def isSample (x : Binary64) : Bool := x.isFinite && !x.lt .zero && x.lt (.ofNat 1)

def reconnectStep (c : Client) (t : TaskId) (epoch : Nat) (choice : Choice) :
    ReconnectPhase → Option (Client × ReconnectPhase)
  | .checkClosed =>
    match choice with
    | .run => some (c, if c.shared.closed then .clear else .checkEpoch)
    | _ => none
  | .checkEpoch =>
    match choice with
    | .run => some (c, if c.shared.epoch = epoch then .count else .clear)
    | _ => none
  | .count =>
    match choice with
    | .drawn sample =>
      if !isSample sample then none
      else
        let attempt := c.shared.attempts
        let next := (c.shared.config.backoff.delay? attempt sample).elim .done (.sleeping attempt)
        some (c.update fun s => { s with attempts := attempt + 1 }, next)
    | _ => none
  | .sleeping _ _ =>
    match choice with
    | .elapsed => some (c, .wakeClosed)
    | .cancelled => if c.shared.epoch = epoch then none else some (c, .clear)
    | _ => none
  | .wakeClosed =>
    match choice with
    | .run => some (c, if c.shared.closed then .clear else .wakeEpoch)
    | _ => none
  | .wakeEpoch =>
    match choice with
    | .run => some (c, if c.shared.epoch = epoch then .opening .checkClosed else .clear)
    | _ => none
  | .opening p =>
    (c.openStep t epoch choice p).map fun (c, next) =>
      match next with
      | .phase p => (c, .opening p)
      | .over (.ok ()) => (c, .clear)
      | .over (.error _) => (c, .checkClosed)
  | .clear =>
    match choice with
    | .run => some (c.update fun s => { s with reconnecting := false }, .recheckClosed)
    | _ => none
  | .recheckClosed =>
    match choice with
    | .run => some (c, if c.shared.closed then .done else .recheckStatus)
    | _ => none
  | .recheckStatus =>
    match choice with
    | .run =>
      some (c, if c.shared.status = .reconnecting then .starting .checkClosed else .done)
    | _ => none
  | .starting p =>
    (c.startStep choice p).map fun (c, next) =>
      match next with
      | .phase p => (c, .starting p)
      | .over () => (c, .done)
  | .done => none

end DuplexRpc.Client
