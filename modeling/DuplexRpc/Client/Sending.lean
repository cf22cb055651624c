import DuplexRpc.Client.Task

/-!
Writing a text through the outbound slot. The lock is held until the write has ended.
-/
namespace DuplexRpc.Client

def logSent (s : Shared) (t : TaskId) (generation : Generation) (content : Content) : Shared :=
  { s with sent := s.sent ++ [⟨generation, t, content⟩] }

def sendStep (c : Client) (t : TaskId) (text : String) (choice : Choice) :
    SendPhase → Option (Client × Next SendPhase (Except Failure Unit))
  | .request =>
    match choice with
    | .run => some (c.update (·.request t), .phase .lock)
    | _ => none
  | .lock =>
    match choice with
    | .run =>
      if !c.holds t then none
      else match c.shared.outbound.sink with
        | some g => some (c, .phase (.writing g))
        | none => some (c.update Shared.release, .over (.error .notConnected))
    | _ => none
  | .writing g =>
    match choice with
    | .written none =>
      some (c.update fun s => (logSent s t g (.text text)).release, .over (.ok ()))
    | .written (some report) =>
      some (c.update Shared.release, .over (.error (.webSocket report)))
    | _ => none

end DuplexRpc.Client
