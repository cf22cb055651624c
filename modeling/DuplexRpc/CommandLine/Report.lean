import DuplexRpc.Address.Flags
import DuplexRpc.Address.Listener
import DuplexRpc.CommandLine.Arguments
import DuplexRpc.Session.Script

/-!
What the program reports. It describes an address, opens a listener, or makes one call over a link
of its own. A fault is reported with its causes, one below the other.
-/
namespace DuplexRpc.CommandLine

structure Report where
  code : UInt32
  output : String
  errors : String
  deriving DecidableEq

namespace Report

def lines (text : String) : List String := text.splitOn "\n"

/-- A cause below the line that it explains. -/
def indented (text : String) : String :=
  "\n".intercalate ((lines text).map ("    " ++ ·))

def ofFault (message : String) (cause : Option String) : Report :=
  ⟨1, "", "Error: " ++ message ++ cause.elim "" ("\n\nCaused by:\n" ++ indented ·) ++ "\n"⟩

def ofFailure (f : Failure) : Report := ofFault f.message f.source

def success (output : String) : Report := ⟨0, output ++ "\n", ""⟩

def usage : String :=
  "Usage: duplex-rpc [-d] resolve <URI>\n" ++
  "       duplex-rpc [-d] listen [--listen <URI>] [--port <PORT>]\n" ++
  "       duplex-rpc [-d] invoke --url <URL> --method <METHOD> [--params <JSON>]\n" ++
  "           [--timeout-ms <MILLISECONDS>]\n"

def ofRefusal : Refusal → Report
  | .help => ⟨0, usage, ""⟩
  | .misuse => ⟨2, "", usage⟩

/-- An object with one member a line, the members in the order given. -/
def memberLines (members : List (String × Json)) : String :=
  let line := fun (key, value) =>
    "  " ++ String.ofList (Json.renderString key) ++ ": " ++ Json.toText value
  "\x7b\n" ++ ",\n".intercalate (members.map line) ++ "\n\x7d"

def resolve (uri : String) : Report :=
  match Address.parse uri with
  | .ok a => success (memberLines a.members)
  | .error f => ofFault ("cannot resolve " ++ uri) (some f.message)

def listenMark : String := "LISTEN_ADDR="

def listen (network : Network) (uri : Option String) (port : Option UInt16) : Report :=
  match (Listening.mk network []).listen (Address.ofOptions uri port) with
  | .ok (⟨_, some socket⟩, _) => success (listenMark ++ socket.text)
  | .ok (⟨a, none⟩, _) => success a.wire
  | .error f => ofFailure f

def notObject : String := "--params must be a JSON object"

/-- The failure or the value that the answers come to first. -/
def ofAnswers : List Answer → Option Report
  | .connected (.error f) _ _ :: _ => some (ofFailure f)
  | .outcome (.error f) :: _ => some (ofFailure f)
  | .outcome (.ok value) :: _ => some (success value.toLines)
  | _ :: answers => ofAnswers answers
  | [] => none

end Report

/-- What the program runs in: a network, and a peer with its way to answer a dial. -/
structure Surroundings where
  network : Network
  peer : Peer
  handshake : Handshake

namespace Surroundings

def detached : Surroundings := ⟨.detached, .listening ⟨Network.loopback, 0⟩, .silent⟩

def callName : String := "call"

/-- What happens in one call: the link is opened, used and closed. -/
def call (s : Surroundings) (url : String) (i : Invocation) : List Answer :=
  let stage := Stage.ofSession (.start .standard s.network s.peer) none
  let steps := [.connect url s.handshake, .invoke callName i, .await callName, .close]
  (stage.play steps).toOption.getD []

end Surroundings

/-- A run of the program. -/
structure Run where
  /-- none if the program does not end -/
  report : Option Report
  /-- the texts that the peer got; none without a link -/
  received : Option (List String)

namespace Run

def ofReport (report : Report) : Run := ⟨some report, none⟩

def received? : List Answer → Option (List String)
  | [] => none
  | .connected _ (some _) _ :: answers =>
    some (answers.flatMap fun
      | .sent texts => texts
      | _ => [])
  | _ :: answers => received? answers

def ofAnswers (answers : List Answer) : Run := ⟨Report.ofAnswers answers, received? answers⟩

/-- The params are read before anything is dialed. -/
def invoke (s : Surroundings) (url method params : String) (timeout : Option Duration) : Run :=
  match Json.parse params with
  | .error e => ofReport (.ofFault Report.notObject (some e.message))
  | .ok params =>
    if params.asObject ≠ params then ofReport (.ofFault Report.notObject none)
    else ofAnswers (s.call url ⟨method, params, timeout, none⟩)

end Run

def run (s : Surroundings) (args : List String) : Run :=
  match parse .empty args with
  | .error refusal => .ofReport (.ofRefusal refusal)
  | .ok (.resolve uri) => .ofReport (.resolve uri)
  | .ok (.listen uri port) => .ofReport (.listen s.network uri port)
  | .ok (.invoke url method params timeout) => .invoke s url method params timeout

end DuplexRpc.CommandLine
