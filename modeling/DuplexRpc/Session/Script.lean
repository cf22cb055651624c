import DuplexRpc.Session.Basic

/-!
Scripts for a client and its peer. Each step starts something on one of the two sides, waits for
what it is about, and answers with what can be seen then. Calls and tokens go by names.
-/
namespace DuplexRpc

/-- A call and how it is made; a token in use can cancel it. -/
structure Invocation where
  method : String
  params : Json
  timeout : Option Duration
  token : Option String

inductive Step where
  | register (method : String) (handler : Handler)
  | connect (url : String) (handshake : Handshake)
  /-- a connect that the peer does not answer yet -/
  | beginConnect (url : String)
  | endConnect (handshake : Handshake)
  /-- the peer answers the next dial of the client -/
  | accept (handshake : Handshake)
  /-- a call, up to its request or its failure -/
  | invoke (key : String) (invocation : Invocation)
  /-- a call that nobody waits for -/
  | launch (key : String) (invocation : Invocation)
  | await (key : String)
  | abandon (key : String)
  | cancel (token : String)
  /-- the peer sends frames -/
  | send (frames : List Frame)
  /-- the peer sends frames, up to what the client does about them -/
  | exchange (frames : List Frame)
  | expect (count : Nat)
  /-- the peer ends the link by a last frame -/
  | hangUp (last : Frame)
  /-- the client ends the link -/
  | settle
  | status
  | describe
  | close
  | discard

inductive Answer where
  | done
  | registered (result : Except Failure Unit)
  | state (status : Status)
  | connected (result : Except Failure Unit) (request : Option UpgradeRequest) (status : Status)
  | accepted (request : Option UpgradeRequest) (status : Status)
  | sent (texts : List String)
  | outcome (outcome : Outcome)
  | exchanged (texts : List String) (calls : List HandlerCall) (live : Bool)
  | ended (status : Status) (pending : Nat)
  | overview (status : Status) (pending : Nat) (methods : List String) (endpoint : Option Url)
  | description (text : String)
  | closed (frame : Option (Nat × String)) (status : Status) (pending : Nat)
  | discarded
  /-- what the step is about did not come in time -/
  | stuck

/-- Why a script cannot go on. -/
inductive Obstacle where
  | noLink | unknownCall | stuck
  deriving DecidableEq, Repr

/-- A session under a script. -/
structure Stage where
  session : Session
  /-- how long a step may wait, in nanoseconds -/
  patience : Option Nat
  /-- the calls by name, the last one first -/
  calls : List (String × TaskId)
  /-- the tokens by name, in the order of their numbers -/
  tokens : List String
  /-- how many of the texts sent by the client, and of the calls of its handlers, have been told -/
  toldTexts : Nat
  toldCalls : Nat

namespace Stage

def ofSession (session : Session) (patience : Option Nat) : Stage :=
  ⟨session, patience, [], [], 0, 0⟩

def shared (s : Stage) : Shared := s.session.client.shared

def updateSession (s : Stage) (f : Session → Session) : Stage := { s with session := f s.session }

def updatePeer (s : Stage) (f : Peer → Peer) : Stage :=
  s.updateSession fun session => { session with peer := f session.peer }

def reach (s : Stage) (goal : Session → Bool) : Except Obstacle Stage :=
  match s.session.until? goal s.patience with
  | some session => .ok { s with session }
  | none => .error .stuck

def rest (s : Stage) : Except Obstacle Stage := s.reach fun _ => true

def connecting (s : Stage) (url : String) : Client.Request := .connect (.of s.session.parse url)

/-- Starts a task and gives its number. -/
def begin (s : Stage) (request : Client.Request) : Stage × TaskId :=
  (s.updateSession fun session => { session with client := session.client.spawn request.task },
    s.session.client.tasks.length)

def needLink (s : Stage) : Except Obstacle Unit :=
  if s.session.peer.alive then .ok () else .error .noLink

/-- The text of a frame that went over the last link. -/
def text? (s : Stage) (sent : Sent) : Option String :=
  match sent.content with
  | .text text => if s.session.peer.generation = some sent.generation then some text else none
  | .close _ _ => none

/-- The texts that the peer has got and not told yet. -/
def news (s : Stage) : List String := (s.shared.sent.drop s.toldTexts).filterMap s.text?

def tellTexts (s : Stage) : Stage := { s with toldTexts := s.shared.sent.length }

def callNews (s : Stage) : List HandlerCall := (s.shared.calls.drop s.toldCalls).filter (·.logged)

def tellCalls (s : Stage) : Stage := { s with toldCalls := s.shared.calls.length }

def isLive (s : Stage) : Bool :=
  s.session.peer.alive && s.shared.link.installed == s.session.peer.generation

/-- The peer will answer the next dial like this. -/
def serve (s : Stage) (handshake : Handshake) : Stage :=
  s.updatePeer fun p => { p with handshake := some handshake, request := none }

def leaveDials (s : Stage) : Stage := s.updatePeer fun p => { p with handshake := none }

def forgetLink (s : Stage) : Stage := s.updatePeer fun p => { p with alive := false }

/-- The number of a token, which is new with the first use of its name. -/
def tokenNumber (s : Stage) (name : String) : Nat × Stage :=
  match s.tokens.idxOf? name with
  | some n => (n, s)
  | none => (s.tokens.length, { s with tokens := s.tokens ++ [name] })

def call? (s : Stage) (key : String) : Except Obstacle TaskId :=
  match s.calls.lookup key with
  | some t => .ok t
  | none => .error .unknownCall

def launch (s : Stage) (key : String) (i : Invocation) : Stage × TaskId :=
  let (signal, s) := match i.token with
    | some name => let (n, s) := s.tokenNumber name; (some (Signal.token n), s)
    | none => (none, s)
  let (s, t) := s.begin (.call ⟨i.method, i.params, i.timeout, signal⟩)
  ({ s with calls := (key, t) :: s.calls }, t)

def connectResult (s : Stage) (t : TaskId) : Except Failure Unit :=
  match s.session.client.tasks[t]? with
  | some (.connect (.done result)) => result
  | _ => .ok ()

def outcome? (s : Session) (t : TaskId) : Option Outcome :=
  match s.client.tasks[t]? with
  | some (.call _ (.done outcome)) => outcome
  | _ => none

def isDone (t : TaskId) (s : Session) : Bool := s.client.isDone t

def isDialing (t : TaskId) (s : Session) : Bool :=
  (s.client.tasks[t]?.bind Task.dialing?).isSome

def hasSent (t : TaskId) (s : Session) : Bool := s.client.shared.sent.any (·.writer == t)

/-- The connect that was started last. -/
def lastConnect (s : Stage) : TaskId :=
  (s.session.client.tasks.zipIdx.foldl (fun last (task, t) =>
    match task with
    | .connect _ => t
    | _ => last) 0)

/-- Waits for a connect and tells how it went. -/
def finishConnect (s : Stage) (t : TaskId) : Except Obstacle (Stage × Answer) := do
  let s ← s.reach (isDone t)
  let s := s.leaveDials
  pure (s, .connected (s.connectResult t) s.session.peer.request s.shared.status)

/-- The close frame that the peer has got from a task. -/
def closeFrame? (s : Stage) (t : TaskId) : Option (Nat × String) :=
  s.shared.sent.findSome? fun sent =>
    match sent.content with
    | .close code reason =>
      if sent.writer = t ∧ s.session.peer.generation = some sent.generation then some (code, reason)
      else none
    | .text _ => none

/-- The client has left the link. -/
def hasLeft (g : Option Generation) (s : Session) : Bool := s.client.shared.link.installed != g

def endLink (s : Stage) : Except Obstacle (Stage × Answer) := do
  let s ← s.reach (hasLeft s.session.peer.generation)
  let s := s.forgetLink
  pure (s, .ended s.shared.status s.shared.pending.size)

def perform (s : Stage) : Step → Except Obstacle (Stage × Answer)
  | .register method handler =>
    match s.session.client.register method handler with
    | .ok client =>
      .ok (s.updateSession ({ · with client }), .registered (.ok ()))
    | .error failure => .ok (s, .registered (.error failure))
  | .connect url handshake =>
    let (s, t) := (s.serve handshake).begin (s.connecting url)
    s.finishConnect t
  | .beginConnect url => do
    let (s, t) := s.leaveDials.begin (s.connecting url)
    let s ← s.reach (isDialing t)
    pure (s, .state s.shared.status)
  | .endConnect handshake => (s.serve handshake).finishConnect s.lastConnect
  | .accept handshake => do
    let s ← (s.serve handshake).reach (·.peer.handshake.isNone)
    pure (s, .accepted s.session.peer.request s.shared.status)
  | .invoke key i => do
    let (s, t) := s.launch key i
    let s ← s.reach fun session => isDone t session || hasSent t session
    pure (s.tellTexts, .sent s.news)
  | .launch key i => do
    let s ← (s.launch key i).1.rest
    pure (s, .sent [])
  | .await key => do
    let t ← s.call? key
    let s ← s.reach (isDone t)
    match outcome? s.session t with
    | some outcome => pure (s, .outcome outcome)
    | none => throw .unknownCall
  | .abandon key => do
    let t ← s.call? key
    let s := s.updateSession fun session =>
      { session with client := (session.client.step t .dropped).getD session.client }
    pure (← s.rest, .done)
  | .cancel token => do
    let (n, s) := s.tokenNumber token
    let s := s.updateSession fun session =>
      { session with client := session.client.update (·.cancel (.token n)) }
    pure (← s.rest, .done)
  | .send frames => do
    s.needLink
    let s ← (s.updatePeer (·.send frames)).rest
    pure (s, .done)
  | .exchange frames => do
    s.needLink
    let s ← (s.updatePeer (·.send frames)).rest
    pure (s.tellTexts.tellCalls, .exchanged s.news s.callNews s.isLive)
  | .expect count => do
    s.needLink
    let told := s.toldTexts
    let s ← s.reach fun session => count ≤ { s with session, toldTexts := told }.news.length
    pure (s.tellTexts, .sent s.news)
  | .hangUp last => do
    s.needLink
    (s.updatePeer (·.hangUp last)).endLink
  | .settle => do
    s.needLink
    s.endLink
  | .status =>
    .ok (s, .overview s.shared.status s.shared.pending.size s.shared.registry.methods
      s.shared.link.endpoint)
  | .describe => .ok (s, .description s.shared.describe)
  | .close => do
    let (s, t) := s.begin .close
    let s ← s.reach (isDone t)
    let frame := s.closeFrame? t
    let s := s.forgetLink
    pure (s, .closed frame s.shared.status s.shared.pending.size)
  | .discard => do
    let (s, t) := s.begin .discard
    let s ← s.reach (isDone t)
    pure (s.forgetLink, .discarded)

/-- The answers of a script. A step that waits in vain is the last one. -/
def play (s : Stage) : List Step → Except Obstacle (List Answer)
  | [] => .ok []
  | step :: steps =>
    match s.perform step with
    | .ok (s, answer) => (s.play steps).map (answer :: ·)
    | .error .stuck => .ok [.stuck]
    | .error obstacle => .error obstacle

end Stage
end DuplexRpc
