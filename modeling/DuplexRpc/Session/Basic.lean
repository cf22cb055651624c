import DuplexRpc.Client.Run
import DuplexRpc.Session.Names
import DuplexRpc.Session.Peer

/-!
A client beside a peer, on one timetable. A task that has begun its turn goes on; then the first
waiting task for which something has come; and only when there is none does the time run on to the
next alarm. Every step is a step of the client.
-/
namespace DuplexRpc

/-- When a running timer of a task runs out. -/
structure Alarm where
  task : TaskId
  timer : Timer
  due : Nat
  deriving DecidableEq, Repr

structure Session where
  client : Client
  /-- the parser of URLs -/
  parse : String → Except String Url
  network : Network
  peer : Peer
  /-- the time since the start, in nanoseconds -/
  now : Nat
  alarms : List Alarm

namespace Session

def start (config : Config) (network : Network) (peer : Peer) : Session :=
  ⟨.fresh config, Names.parse, network, peer, 0, []⟩

/-- A timer that runs on keeps its alarm; any other starts now. -/
def wind (s : Session) : Session :=
  let alarm := fun (t : TaskId) (task : Task) =>
    (task.timer? s.client.shared.config).map fun (timer, span) =>
      let running := s.alarms.find? fun a => a.task == t && a.timer == timer
      (⟨t, timer, running.elim (s.now + span.nanos) (·.due)⟩ : Alarm)
  { s with alarms := s.client.tasks.zipIdx.filterMap fun (task, t) => alarm t task }

def addresses (s : Session) (url : Url) : Except String (List Socket) :=
  let sockets := fun (ips : List Ip) => ips.map fun ip => (⟨ip, url.effectivePort⟩ : Socket)
  match url.host with
  | some (.ip ip) => .ok (sockets [ip])
  | some (.domain name) => (s.network.resolve name).map sockets
  | none => .ok []

/-- What a dial comes to; none while it waits. The peer cannot serve a secure link. -/
def dialed (s : Session) (url : Url) : Option Choice :=
  match requestFault? url with
  | some fault => some (.dialFailed (.webSocket ("HTTP format error: " ++ fault)))
  | none =>
    match s.addresses url >>= s.network.dial (· == s.peer.socket) with
    | .error report => some (.dialFailed (.webSocket ("IO error: " ++ report)))
    | .ok _ => if url.scheme = "wss" then some (.dialFailed Peer.unfinished) else s.peer.answer

/-- What may have come for a task. -/
def offers (s : Session) (task : Task) : List Choice :=
  [.run, .cancelled, .settled, .drawn .zero] ++ (task.dialing?.bind s.dialed).toList
    ++ (task.writing?.map s.peer.written).toList ++ (task.reading?.bind s.peer.next).toList

/-- The peer after a step of a task. -/
def peerAfter (s : Session) (task : Task) (choice : Choice) (client : Client) : Peer :=
  let peer := task.dialing?.elim s.peer fun url => s.peer.endDial url choice
  let peer := match choice with
    | .frame _ => { peer with unread := peer.unread.tail }
    | _ => peer
  let peer := match client.shared.link.installed with
    | some g => if s.client.shared.link.installed = some g then peer else peer.hold g
    | none => peer
  (client.shared.sent.drop s.client.shared.sent.length).foldl Peer.receive peer

/-- One step of one task. -/
def step? (s : Session) (t : TaskId) (task : Task) (choice : Choice) : Option Session :=
  (s.client.step t choice).map fun client =>
    wind { s with client, peer := s.peerAfter task choice client }

def stepTask? (s : Session) (t : TaskId) : Option Session := do
  let task ← s.client.tasks[t]?
  (s.offers task).findSome? (s.step? t task)

/-- The next step, without any time running on. -/
def next? (s : Session) : Option Session :=
  let (waiting, running) := (List.range s.client.tasks.length).partition s.client.waits
  (running ++ waiting).findSome? s.stepTask?

/-- The first alarm to ring, the older one of two. -/
def nextAlarm? (s : Session) : Option Alarm :=
  s.alarms.foldl (fun best a =>
    match best with
    | some b => if a.due < b.due then some a else some b
    | none => some a) none

def ring (s : Session) (a : Alarm) : Session :=
  let s := { s with now := max s.now a.due, alarms := s.alarms.erase a }
  (s.client.tasks[a.task]?.bind (s.step? a.task · .elapsed)).getD s

/-- Runs until all wait and the goal is reached; none if it is not reached in time. -/
def reach (goal : Session → Bool) (limit : Option Nat) : Nat → Session → Option Session
  | 0, _ => none
  | fuel + 1, s =>
    match s.next?, s.nextAlarm? with
    | some s, _ => reach goal limit fuel s
    | none, none => if goal s then some s else none
    | none, some a =>
      if a.due ≤ s.now then reach goal limit fuel (s.ring a)
      else if goal s then some s
      else if limit.all (a.due ≤ ·) then reach goal limit fuel (s.ring a)
      else none

/-- More steps than any session takes between two of its goals. -/
def stepLimit : Nat := 1000000

/-- Runs until the goal is reached, for some nanoseconds at most. -/
def until? (s : Session) (goal : Session → Bool) (patience : Option Nat) : Option Session :=
  reach goal (patience.map (s.now + ·)) stepLimit s

end Session
end DuplexRpc
