import DuplexRpc.Client.Connecting
import DuplexRpc.Client.Receiving

/-!
Runs of a client. A move starts an operation of the user or takes one task one step. In an
interleaved run any task may step next; in a cooperative run a task keeps its turn until it waits.
-/
namespace DuplexRpc

namespace Client

/-- Ends a task where it stands, as an abort does at its next wait. -/
def kill (c : Client) (t : TaskId) : Client :=
  let c := c.update (·.leave t)
  match c.tasks[t]? with
  | some (.receive g _) => { c with tasks := c.tasks.set t (.receive g .done) }
  | some (.heart g p) =>
    let c := match p with
      | .probing (.sending _ n _) | .probing (.awaitAnswer n) | .probing (.leaving n _) => c.leave n
      | _ => c
    { c with tasks := c.tasks.set t (.heart g .done) }
  | _ => c

def discardStep (c : Client) (choice : Choice) : DiscardPhase → Option (Client × DiscardPhase)
  | .closing p =>
    match choice, p with
    | .run, .request tasks => some (c, .abort tasks)
    | .run, p => (c.beginClose p).map fun (c, p) => (c, .closing p)
    | _, _ => none
  | .abort tasks =>
    match choice with
    | .run => some (tasks.foldl kill c, .fail)
    | _ => none
  | .fail =>
    match choice with
    | .run => some (c.update Shared.failAll, .done)
    | _ => none
  | .done => none

def taskStep (c : Client) (t : TaskId) (choice : Choice) : Task → Option (Client × Task)
  | .connect p => (c.connectStep t choice p).map fun (c, p) => (c, .connect p)
  | .close (some p) =>
    (c.closeStep t choice p).map fun (c, next) =>
      match next with
      | .phase p => (c, .close (some p))
      | .over () => (c, .close none)
  | .close none => none
  | .call spec p =>
    (c.callStep t spec choice p).map fun (c, next) =>
      match next with
      | .phase p => (c, .call spec p)
      | .over outcome => (c, .call spec (.done outcome))
  | .receive g p => (c.receiveStep t g choice p).map fun (c, p) => (c, .receive g p)
  | .heart g p => (c.heartStep t g choice p).map fun (c, p) => (c, .heart g p)
  | .reconnect epoch p =>
    (c.reconnectStep t epoch choice p).map fun (c, p) => (c, .reconnect epoch p)
  | .discard p => (c.discardStep choice p).map fun (c, p) => (c, .discard p)

/-- One step of one task; none if the task cannot take it. -/
def step (c : Client) (t : TaskId) (choice : Choice) : Option Client := do
  let task ← c.tasks[t]?
  let (c, task) ← c.taskStep t choice task
  pure { c with tasks := c.tasks.set t task }

/-- An operation of the user. -/
inductive Request where
  | connect (target : Target)
  | close
  | call (spec : CallSpec)
  | discard

def Request.task : Request → Task
  | connect target => .connect (.start target)
  | close => .close (some .mark)
  | call spec => .call spec .start
  | discard => .discard (.closing .mark)

inductive Move where
  | start (request : Request)
  | register (method : String) (handler : Handler)
  | cancel (token : Nat)
  | step (task : TaskId) (choice : Choice)

def register (c : Client) (method : String) (handler : Handler) : Except Failure Client :=
  (c.shared.registry.register method handler).map fun registry =>
    c.update fun s => { s with registry }

def apply (c : Client) : Move → Option Client
  | .start request => some (c.spawn request.task)
  | .register method handler => (c.register method handler).toOption
  | .cancel token => some (c.update (·.cancel (.token token)))
  | .step t choice => c.step t choice

def SendPhase.waits (held : Bool) : SendPhase → Bool
  | .request => false
  | .lock => !held
  | .writing _ => true

def OpenPhase.waits (held : Bool) : OpenPhase → Bool
  | .dialing _ => true
  | .refusing => true
  | .lock => !held
  | _ => false

/-- A close waits for the lock, the close handshake, and each task that is not over. -/
def ClosePhase.waits (held : Bool) (isDone : TaskId → Bool) : ClosePhase → Bool
  | .lock _ => !held
  | .shaking _ _ => true
  | .joining (task :: _) => !isDone task
  | _ => false

def CallPhase.waits (held : Bool) : CallPhase → Bool
  | .awaitOpen => true
  | .sending _ _ p => SendPhase.waits held p
  | .awaitAnswer _ => true
  | .done _ => true
  | _ => false

def DisconnectPhase.waits (held : Bool) : DisconnectPhase → Bool
  | .lock _ => !held
  | _ => false

def ReceivePhase.waits (held : Bool) : ReceivePhase → Bool
  | .idle => true
  | .handling _ _ => true
  | .replying _ p => SendPhase.waits held p
  | .disconnecting p => DisconnectPhase.waits held p
  | .done => true

def HeartPhase.waits (held : Bool) : HeartPhase → Bool
  | .ticking => true
  | .probing p => CallPhase.waits held p
  | .done => true
  | _ => false

def ReconnectPhase.waits (held : Bool) : ReconnectPhase → Bool
  | .sleeping _ _ => true
  | .opening p => OpenPhase.waits held p
  | .done => true
  | _ => false

def ConnectPhase.waits (held : Bool) (isDone : TaskId → Bool) : ConnectPhase → Bool
  | .closing _ p => ClosePhase.waits held isDone p
  | .opening _ p => OpenPhase.waits held p
  | .failing p _ => ClosePhase.waits held isDone p
  | .done _ => true
  | _ => false

def DiscardPhase.waits : DiscardPhase → Bool
  | .done => true
  | _ => false

/-- The task stands where it lets others run, or is over. -/
def waits (c : Client) (t : TaskId) : Bool :=
  let held := c.holds t
  match c.tasks[t]? with
  | none => true
  | some (.connect p) => ConnectPhase.waits held c.isDone p
  | some (.close (some p)) => ClosePhase.waits held c.isDone p
  | some (.close none) => true
  | some (.call _ p) => CallPhase.waits held p
  | some (.receive _ p) => ReceivePhase.waits held p
  | some (.heart _ p) => HeartPhase.waits held p
  | some (.reconnect _ p) => ReconnectPhase.waits held p
  | some (.discard p) => DiscardPhase.waits p

/-- States that some interleaving of the tasks leads to. -/
inductive Reachable (config : Config) : Client → Prop where
  | fresh : Reachable config (fresh config)
  | move {c c' : Client} (m : Move) (before : Reachable config c) (h : c.apply m = some c') :
    Reachable config c'

/-- A move leaves the turn with the task that made the last step, unless that task waits. -/
def keepsTurn (c : Client) (turn : Option TaskId) : Move → Bool
  | .step t _ => turn == some t || turn.all c.waits
  | _ => turn.all c.waits

def Move.turn (turn : Option TaskId) : Move → Option TaskId
  | .step t _ => some t
  | _ => turn

/-- States that some cooperative run leads to, and the task whose turn it is. -/
inductive Cooperative (config : Config) : Option TaskId → Client → Prop where
  | fresh : Cooperative config none (fresh config)
  | move {turn : Option TaskId} {c c' : Client} (m : Move) (before : Cooperative config turn c)
    (keeps : c.keepsTurn turn m = true) (h : c.apply m = some c') :
    Cooperative config (m.turn turn) c'

end Client
end DuplexRpc
