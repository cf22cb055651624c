import DuplexRpc.Client.State

/-!
The tasks of a client and the phases they pass through. A phase stands for the place at which a task
is; between two phases lies one section under a lock, one access to an atomic value, or one wait.
-/
namespace DuplexRpc

/-- Where an activity is next: at a phase, or over with a result. -/
inductive Next (P R : Type) where
  | phase (p : P)
  | over (r : R)

/-- Writing one text to the outbound slot. -/
inductive SendPhase where
  | request
  | lock
  | writing (generation : Generation)
  deriving DecidableEq, Repr

/-- Opening a link under an epoch. -/
inductive OpenPhase where
  | checkClosed
  | checkEpoch
  | readEndpoint
  | dialing (url : Url)
  | refusing
  | request
  | lock
  | failRetired
  | resetAttempts
  | publish
  deriving DecidableEq

/-- What a close has taken out of the link. -/
structure Detached where
  installed : Option Generation
  tasks : List TaskId
  deriving DecidableEq, Repr

inductive ClosePhase where
  | mark
  | bump
  | detach
  | publish (d : Detached)
  | signal (d : Detached)
  | request (tasks : List TaskId)
  | lock (tasks : List TaskId)
  | shaking (generation : Generation) (tasks : List TaskId)
  | joining (tasks : List TaskId)
  | fail
  deriving DecidableEq, Repr

/-- What a connect is asked for: a text, and what the parser of URLs makes of it, a URL or the
report of a fault. The parser belongs to a library, and the client takes its result as it comes. -/
structure Target where
  text : String
  parsed : Except String Url

def Target.of (parse : String → Except String Url) (text : String) : Target := ⟨text, parse text⟩

inductive ConnectPhase where
  | start (target : Target)
  | closing (url : Url) (p : ClosePhase)
  | setEndpoint (url : Url)
  | readEpoch
  | resetAttempts (epoch : Nat)
  | unclose (epoch : Nat)
  | publish (epoch : Nat)
  | opening (epoch : Nat) (p : OpenPhase)
  | failing (p : ClosePhase) (failure : Failure)
  | done (result : Except Failure Unit)

structure CallSpec where
  method : String
  params : Json
  timeout : Option Duration
  signal : Option Signal
  deriving DecidableEq

inductive CallPhase where
  | start
  | checkSignal
  | readStatus
  | awaitOpen
  | allocate
  | register (id : String)
  | sending (id : String) (registration : Nat) (p : SendPhase)
  | awaitAnswer (registration : Nat)
  | leaving (registration : Nat) (outcome : Option Outcome)
  | done (outcome : Option Outcome)
  deriving DecidableEq

/-- Starting a reconnect task unless one runs. -/
inductive StartPhase where
  | checkClosed
  | claim
  | readEpoch
  deriving DecidableEq, Repr

/-- Taking down a generation whose link has ended. -/
inductive DisconnectPhase where
  | detach
  | signal (installed : Generation)
  | readClosed
  | publish
  | request (closed : Bool)
  | lock (closed : Bool)
  | fail (closed : Bool)
  | starting (p : StartPhase)
  deriving DecidableEq, Repr

inductive ReceivePhase where
  | idle
  | handling (id : Option Json) (result : HandlerResult)
  | replying (response : Response) (p : SendPhase)
  | disconnecting (p : DisconnectPhase)
  | done
  deriving DecidableEq

inductive HeartPhase where
  | ticking
  | checkClosed
  | probing (p : CallPhase)
  | raise
  | done
  deriving DecidableEq

inductive ReconnectPhase where
  | checkClosed
  | checkEpoch
  | count
  | sleeping (attempt : UInt32) (delay : Duration)
  | wakeClosed
  | wakeEpoch
  | opening (p : OpenPhase)
  | clear
  | recheckClosed
  | recheckStatus
  | starting (p : StartPhase)
  | done
  deriving DecidableEq

/-- Dropping the client: a close that aborts the tasks and sends nothing. -/
inductive DiscardPhase where
  | closing (p : ClosePhase)
  | abort (tasks : List TaskId)
  | fail
  | done
  deriving DecidableEq, Repr

inductive Task where
  | connect (p : ConnectPhase)
  /-- none once it is over -/
  | close (p : Option ClosePhase)
  | call (spec : CallSpec) (p : CallPhase)
  | receive (generation : Generation) (p : ReceivePhase)
  | heart (generation : Generation) (p : HeartPhase)
  | reconnect (epoch : Nat) (p : ReconnectPhase)
  | discard (p : DiscardPhase)

def Task.isDone : Task → Bool
  | connect (.done _) => true
  | close none => true
  | call _ (.done _) => true
  | receive _ .done => true
  | heart _ .done => true
  | reconnect _ .done => true
  | discard .done => true
  | _ => false

structure Client where
  shared : Shared
  tasks : List Task

/-- What the surroundings contribute to one step of a task. -/
inductive Choice where
  /-- nothing: the task runs on -/
  | run
  /-- what the task waits for has come -/
  | settled
  /-- its timer has run out -/
  | elapsed
  /-- it sees that it is cancelled or superseded -/
  | cancelled
  /-- the user has dropped it -/
  | dropped
  | dialFailed (failure : Failure)
  /-- the peer answered with a subprotocol that was not offered -/
  | mismatched
  | upgraded (subprotocol : Option String)
  /-- a write has ended, with a report if it failed -/
  | written (report : Option String)
  | frame (f : Frame)
  /-- the random part of a delay -/
  | drawn (sample : Binary64)

namespace Client

def fresh (config : Config) : Client := ⟨.fresh config, []⟩

def update (c : Client) (f : Shared → Shared) : Client := { c with shared := f c.shared }

def isDone (c : Client) (t : TaskId) : Bool := (c.tasks[t]?).all Task.isDone

def spawn (c : Client) (task : Task) : Client := { c with tasks := c.tasks ++ [task] }

def holds (c : Client) (t : TaskId) : Bool := c.shared.outbound.isHeldBy t

end Client
end DuplexRpc
