import DuplexRpc.Client.Sending

/-!
Closing. The mark and the new epoch come first, so that no opening begun before can install a link
that the section on the link does not see. The close frame is sent, the tasks of the link are waited
for, and what still waits is failed.
-/
namespace DuplexRpc.Client

def closeCode : Nat := 1000

def closeReason : String := "client close"

def tasksOf (link : Link) : List TaskId := [link.receiver, link.heart].filterMap id

def detach (s : Shared) : Shared × Detached :=
  ({ s with link := { s.link with
      generation := s.link.generation + 1, installed := none, receiver := none, heart := none } },
    ⟨s.link.installed, tasksOf s.link⟩)

def signalDetached (s : Shared) (d : Detached) : Shared :=
  d.installed.elim s fun g => s.cancel (.generation g)

/-- The steps up to the point where the tasks of the link are told to end. -/
def beginClose (c : Client) : ClosePhase → Option (Client × ClosePhase)
  | .mark => some (c.update fun s => { s with closed := true }, .bump)
  | .bump => some (c.update fun s => { s with epoch := s.epoch + 1 }, .detach)
  | .detach => some (c.update fun s => (detach s).1, .publish (detach c.shared).2)
  | .publish d => some (c.update fun s => { s with status := .closed }, .signal d)
  | .signal d => some (c.update (signalDetached · d), .request d.tasks)
  | _ => none

def closeStep (c : Client) (t : TaskId) (choice : Choice) :
    ClosePhase → Option (Client × Next ClosePhase Unit)
  | .request tasks =>
    match choice with
    | .run => some (c.update (·.request t), .phase (.lock tasks))
    | _ => none
  | .lock tasks =>
    match choice with
    | .run =>
      if !c.holds t then none
      else
        let next := c.shared.outbound.sink.elim (.joining tasks) (.shaking · tasks)
        some (c.update fun s =>
          { s with outbound := { s.outbound with sink := none } }.release, .phase next)
    | _ => none
  | .shaking g tasks =>
    match choice with
    | .written none =>
      some (c.update (logSent · t g (.close closeCode closeReason)), .phase (.joining tasks))
    | .written (some _) => some (c, .phase (.joining tasks))
    | .elapsed => some (c, .phase (.joining tasks))
    | _ => none
  | .joining [] =>
    match choice with
    | .run => some (c, .phase .fail)
    | _ => none
  | .joining (task :: tasks) =>
    match choice with
    | .run => if c.isDone task then some (c, .phase (.joining tasks)) else none
    | _ => none
  | .fail =>
    match choice with
    | .run => some (c.update Shared.failAll, .over ())
    | _ => none
  | p =>
    match choice with
    | .run => (c.beginClose p).map fun (c, p) => (c, .phase p)
    | _ => none

end DuplexRpc.Client
