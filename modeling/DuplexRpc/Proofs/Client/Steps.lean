import DuplexRpc.Proofs.Client.Epochs

/-!
What one step of a task can do, case by case. An activity that several kinds of tasks go through,
such as opening a link, is described once; a frame says how a task goes on with it. Every fact about
all steps is derived from these cases.
-/
namespace DuplexRpc

namespace OpenPhase

/-- Nothing has been asked for yet but the dial. -/
def isEarly : OpenPhase → Bool
  | checkClosed | checkEpoch | readEndpoint | dialing _ | refusing => true
  | _ => false

end OpenPhase

namespace ReconnectPhase

/-- The task is about to try, outside an opening. -/
def isLooping : ReconnectPhase → Bool
  | checkClosed | checkEpoch | count | sleeping _ _ | wakeClosed | wakeEpoch => true
  | _ => false

end ReconnectPhase

namespace CallPhase

/-- The call has not been let in yet. -/
def isOutside : CallPhase → Bool
  | start | checkSignal | readStatus | awaitOpen => true
  | _ => false

end CallPhase

/-- What a view of the phases makes of where an activity is next. -/
def Next.elim {P R α : Type} (view : P → α) (otherwise : α) : Next P R → α
  | .phase p => view p
  | .over _ => otherwise

@[simp] theorem Next.elim_phase {P R α : Type} (view : P → α) (otherwise : α) (p : P) :
    (Next.phase p : Next P R).elim view otherwise = view p := rfl

@[simp] theorem Next.elim_over {P R α : Type} (view : P → α) (otherwise : α) (r : R) :
    (Next.over r : Next P R).elim view otherwise = otherwise := rfl

namespace Client

variable {c c' : Client} {t : TaskId} {choice : Choice}

/-- The marks of a generation that is told to end. -/
def endMarks (installed : Option Generation) : List Signal :=
  (installed.map Signal.generation).toList

theorem install_eq (c : Client) (epoch : Nat) :
    c.install epoch =
      { shared := { c.shared with
          link := { c.shared.link with
            generation := c.shared.link.generation + 1
            installed := some (c.shared.link.generation + 1), openedUnder := epoch
            receiver := some c.tasks.length, heart := some (c.tasks.length + 1) }
          outbound := { c.shared.outbound with sink := some (c.shared.link.generation + 1) }
          cancelled := endMarks c.shared.link.installed ++ c.shared.cancelled }
        tasks := c.tasks ++ [.receive (c.shared.link.generation + 1) .idle,
          .heart (c.shared.link.generation + 1) .ticking] } := by
  unfold install
  dsimp only
  cases c.shared.link.installed <;> rfl

theorem signalDetached_eq (s : Shared) (d : Detached) :
    signalDetached s d = { s with cancelled := endMarks d.installed ++ s.cancelled } := by
  unfold signalDetached
  cases d.installed <;> rfl

/-- The beginning of a close has nothing to do with calls. It leaves the endpoint, and takes no
signal back. -/
theorem beginClose_eq_some {p p' : ClosePhase} (h : c.beginClose p = some (c', p')) :
    ∃ closed epoch link status cancelled,
      c' = c.update (fun s => { s with closed, epoch, link, status, cancelled }) ∧
        link.endpoint = c.shared.link.endpoint ∧ c.shared.cancelled ⊆ cancelled := by
  cases p with
  | signal d =>
    cases h
    exact ⟨_, _, _, _, _, congrArg (Client.mk · c.tasks) (signalDetached_eq c.shared d), rfl,
      List.subset_append_right ..⟩
  | mark | bump | detach | publish d =>
    cases h
    exact ⟨_, _, _, _, _, rfl, rfl, List.Subset.refl _⟩
  | _ => cases h

inductive SendStep (c : Client) (t : TaskId) (text : String) :
    SendPhase → Client → Next SendPhase (Except Failure Unit) → Prop where
  | ask : SendStep c t text .request (c.update (·.request t)) (.phase .lock)
  | begin {g : Generation} (held : c.holds t = true) (hsink : c.shared.outbound.sink = some g) :
    SendStep c t text .lock c (.phase (.writing g))
  | unconnected (held : c.holds t = true) (hsink : c.shared.outbound.sink = none) :
    SendStep c t text .lock (c.update Shared.release) (.over (.error .notConnected))
  | written (g : Generation) :
    SendStep c t text (.writing g) (c.update fun s => (logSent s t g (.text text)).release)
      (.over (.ok ()))
  | broken (g : Generation) (report : String) :
    SendStep c t text (.writing g) (c.update Shared.release) (.over (.error (.webSocket report)))

inductive OpenStep (c : Client) (t : TaskId) (epoch : Nat) :
    OpenPhase → Client → Next OpenPhase (Except Failure Unit) → Prop where
  | look {p p' : OpenPhase} (hp : p.isEarly = true) (hp' : p'.isEarly = true) :
    OpenStep c t epoch p c (.phase p')
  | fail {p : OpenPhase} (failure : Failure) (hp : p.isEarly = true) :
    OpenStep c t epoch p c (.over (.error failure))
  | dialed (url : Url) : OpenStep c t epoch (.dialing url) c (.phase .request)
  | ask : OpenStep c t epoch .request (c.update (·.request t)) (.phase .lock)
  | late (held : c.holds t = false) :
    OpenStep c t epoch .lock (c.update (·.leave t)) (.over (.error c.openTimeout))
  | stale (held : c.holds t = true) (h : c.isStale epoch = true) :
    OpenStep c t epoch .lock (c.update Shared.release) (.over (.error .clientClosed))
  | install (held : c.holds t = true) (h : c.isStale epoch = false) :
    OpenStep c t epoch .lock
      { shared := { c.shared with
          link := { c.shared.link with
            generation := c.shared.link.generation + 1
            installed := some (c.shared.link.generation + 1), openedUnder := epoch
            receiver := some c.tasks.length, heart := some (c.tasks.length + 1) }
          outbound :=
            { c.shared.outbound with sink := some (c.shared.link.generation + 1) }.release
          cancelled := endMarks c.shared.link.installed ++ c.shared.cancelled }
        tasks := c.tasks ++ [.receive (c.shared.link.generation + 1) .idle,
          .heart (c.shared.link.generation + 1) .ticking] }
      (.phase (if c.shared.link.installed.isSome then .failRetired else .resetAttempts))
  | failRetired : OpenStep c t epoch .failRetired (c.update Shared.failAll) (.phase .resetAttempts)
  | resetAttempts :
    OpenStep c t epoch .resetAttempts (c.update fun s => { s with attempts := 0 }) (.phase .publish)
  | publish :
    OpenStep c t epoch .publish (c.update fun s => { s with status := .opened }) (.over (.ok ()))

inductive CloseStep (c : Client) (t : TaskId) :
    ClosePhase → Client → Next ClosePhase Unit → Prop where
  | mark : CloseStep c t .mark (c.update fun s => { s with closed := true }) (.phase .bump)
  | bump : CloseStep c t .bump (c.update fun s => { s with epoch := s.epoch + 1 }) (.phase .detach)
  | detach :
    CloseStep c t .detach (c.update fun s => (detach s).1) (.phase (.publish (detach c.shared).2))
  | publish (d : Detached) :
    CloseStep c t (.publish d) (c.update fun s => { s with status := .closed }) (.phase (.signal d))
  | signal (d : Detached) :
    CloseStep c t (.signal d)
      (c.update fun s => { s with cancelled := endMarks d.installed ++ s.cancelled })
      (.phase (.request d.tasks))
  | ask (tasks : List TaskId) :
    CloseStep c t (.request tasks) (c.update (·.request t)) (.phase (.lock tasks))
  | take (tasks : List TaskId) (held : c.holds t = true) :
    CloseStep c t (.lock tasks)
      (c.update fun s => { s with outbound := { s.outbound with sink := none } }.release)
      (.phase (c.shared.outbound.sink.elim (.joining tasks) (.shaking · tasks)))
  | shaken (g : Generation) (tasks : List TaskId) :
    CloseStep c t (.shaking g tasks)
      (c.update (logSent · t g (.close closeCode closeReason))) (.phase (.joining tasks))
  | unshaken (g : Generation) (tasks : List TaskId) :
    CloseStep c t (.shaking g tasks) c (.phase (.joining tasks))
  | join (task : TaskId) (tasks : List TaskId) (h : c.isDone task = true) :
    CloseStep c t (.joining (task :: tasks)) c (.phase (.joining tasks))
  | joined : CloseStep c t (.joining []) c (.phase .fail)
  | fail : CloseStep c t .fail (c.update Shared.failAll) (.over ())

/-- The steps of a call. Only a call that the user drops ends without an outcome. -/
inductive CallStep (c : Client) (t : TaskId) (spec : CallSpec) (choice : Choice) :
    CallPhase → Client → Next CallPhase (Option Outcome) → Prop where
  | look {p p' : CallPhase} (hp : p.isOutside = true) (hp' : p'.isOutside = true) :
    CallStep c t spec choice p c (.phase p')
  | turnedAway {p : CallPhase} {outcome : Option Outcome} (hp : p.isOutside = true)
    (h : outcome = none → choice = .dropped) : CallStep c t spec choice p c (.over outcome)
  | enter {p : CallPhase} (hp : p.isOutside = true) (h : c.shared.status = .opened) :
    CallStep c t spec choice p c (.phase .allocate)
  | allocate :
    CallStep c t spec choice .allocate (c.update fun s => { s with issued := s.issued + 1 })
      (.phase (.register (Shared.callId (c.shared.issued + 1))))
  | register {id : String} {n : Nat} {pending : PendingTable}
    (h : c.shared.pending.register id = .ok (n, pending)) :
    CallStep c t spec choice (.register id) (c.update fun s => { s with pending })
      (.phase (.sending id n .request))
  | refuse (id : String) (failure : Failure) :
    CallStep c t spec choice (.register id) c (.over (some (.error failure)))
  | send (id : String) (n : Nat) {c' : Client} {p p' : SendPhase}
    (h : SendStep c t (spec.requestText id) p c' (.phase p')) :
    CallStep c t spec choice (.sending id n p) c' (.phase (.sending id n p'))
  | sent (id : String) (n : Nat) {c' : Client} {p : SendPhase}
    (h : SendStep c t (spec.requestText id) p c' (.over (.ok ()))) :
    CallStep c t spec choice (.sending id n p) c' (.phase (.awaitAnswer n))
  | unsent (id : String) (n : Nat) {c' : Client} {p : SendPhase} {failure : Failure}
    (h : SendStep c t (spec.requestText id) p c' (.over (.error failure))) :
    CallStep c t spec choice (.sending id n p) c' (.phase (.leaving n (some (.error failure))))
  | dropSending (id : String) (n : Nat) {p : SendPhase} (h : p ≠ .request)
    (dropped : choice = .dropped) :
    CallStep c t spec choice (.sending id n p) (c.update (·.leave t)) (.phase (.leaving n none))
  | answered {n : Nat} {outcome : Outcome}
    (h : c.shared.pending.slot? n = some (.answered outcome)) :
    CallStep c t spec choice (.awaitAnswer n) c (.phase (.leaving n (some outcome)))
  | forgotten {n : Nat} (h : c.shared.pending.slot? n = some .closed) :
    CallStep c t spec choice (.awaitAnswer n) c
      (.phase (.leaving n (some (.error .connectionClosed))))
  | late (n : Nat) :
    CallStep c t spec choice (.awaitAnswer n) c
      (.phase (.leaving n (some (.error (.timeout (spec.deadline c.shared.config))))))
  | cancelled (n : Nat) :
    CallStep c t spec choice (.awaitAnswer n) c (.phase (.leaving n (some (.error .cancelled))))
  | dropWaiting (n : Nat) (dropped : choice = .dropped) :
    CallStep c t spec choice (.awaitAnswer n) c (.phase (.leaving n none))
  | leave (n : Nat) (outcome : Option Outcome) :
    CallStep c t spec choice (.leaving n outcome) (c.leave n) (.over outcome)

inductive StartStep (c : Client) : StartPhase → Client → Next StartPhase Unit → Prop where
  | closed (h : c.shared.closed = true) : StartStep c .checkClosed c (.over ())
  | unclosed (h : c.shared.closed = false) : StartStep c .checkClosed c (.phase .claim)
  | taken (h : c.shared.reconnecting = true) : StartStep c .claim c (.over ())
  | claim (h : c.shared.reconnecting = false) :
    StartStep c .claim (c.update fun s => { s with reconnecting := true }) (.phase .readEpoch)
  | spawn :
    StartStep c .readEpoch (c.spawn (.reconnect c.shared.epoch .checkClosed)) (.over ())

/-- The steps of taking a generation down, up to the starting of a reconnect task. -/
inductive DisconnectStep (c : Client) (t : TaskId) (g : Generation) :
    DisconnectPhase → Client → Next DisconnectPhase Unit → Prop where
  | retired (h : ∀ old, c.shared.link.installed = some old → c.shared.link.generation ≠ g) :
    DisconnectStep c t g .detach c (.over ())
  | detach {old : Generation} (hold : c.shared.link.installed = some old)
    (hg : c.shared.link.generation = g) :
    DisconnectStep c t g .detach
      (c.update fun s =>
        { s with link := { s.link with installed := none, receiver := none, heart := none } })
      (.phase (.signal old))
  | signal (old : Generation) :
    DisconnectStep c t g (.signal old) (c.update (·.cancel (.generation old))) (.phase .readClosed)
  | closed (h : c.shared.closed = true) :
    DisconnectStep c t g .readClosed c (.phase (.request true))
  | unclosed (h : c.shared.closed = false) : DisconnectStep c t g .readClosed c (.phase .publish)
  | publish :
    DisconnectStep c t g .publish (c.update fun s => { s with status := .reconnecting })
      (.phase (.request false))
  | ask (closed : Bool) :
    DisconnectStep c t g (.request closed) (c.update (·.request t)) (.phase (.lock closed))
  | clear (closed : Bool) (held : c.holds t = true) :
    DisconnectStep c t g (.lock closed)
      (c.update fun s =>
        let sink := if s.outbound.sink = some g then none else s.outbound.sink
        { s with outbound := { s.outbound with sink } }.release)
      (.phase (.fail closed))
  | failClosed : DisconnectStep c t g (.fail true) (c.update Shared.failAll) (.over ())
  | fail :
    DisconnectStep c t g (.fail false) (c.update Shared.failAll) (.phase (.starting .checkClosed))

inductive ConnectStep (c : Client) : ConnectPhase → Client → ConnectPhase → Prop where
  | refused (target : Target) (failure : Failure) :
    ConnectStep c (.start target) c (.done (.error failure))
  | accepted (target : Target) (url : Url) : ConnectStep c (.start target) c (.closing url .mark)
  | setEndpoint (url : Url) :
    ConnectStep c (.setEndpoint url)
      (c.update fun s => { s with link := { s.link with endpoint := some url } }) .readEpoch
  | readEpoch : ConnectStep c .readEpoch c (.resetAttempts c.shared.epoch)
  | resetAttempts (epoch : Nat) :
    ConnectStep c (.resetAttempts epoch) (c.update fun s => { s with attempts := 0 })
      (.unclose epoch)
  | unclose (epoch : Nat) :
    ConnectStep c (.unclose epoch) (c.update fun s => { s with closed := false }) (.publish epoch)
  | publish (epoch : Nat) :
    ConnectStep c (.publish epoch) (c.update fun s => { s with status := .connecting })
      (.opening epoch .checkClosed)

inductive ReconnectStep (c : Client) (epoch : Nat) :
    ReconnectPhase → Client → ReconnectPhase → Prop where
  | look {p p' : ReconnectPhase} (hp : p.isLooping = true) (hp' : p'.isLooping = true) :
    ReconnectStep c epoch p c p'
  | dial : ReconnectStep c epoch .wakeEpoch c (.opening .checkClosed)
  | count (attempt : UInt32) (delay : Duration) :
    ReconnectStep c epoch .count (c.update fun s => { s with attempts := s.attempts + 1 })
      (.sleeping attempt delay)
  | breakOff {sample : Binary64} (hsample : isSample sample = true)
    (h : c.shared.config.backoff.delay? c.shared.attempts sample = none) :
    ReconnectStep c epoch .count (c.update fun s => { s with attempts := s.attempts + 1 }) .done
  | leave {p : ReconnectPhase} (hp : p.isLooping = true)
    (h : c.shared.closed = true ∨ c.shared.epoch ≠ epoch) : ReconnectStep c epoch p c .clear
  | clear :
    ReconnectStep c epoch .clear (c.update fun s => { s with reconnecting := false }) .recheckClosed
  | closed (h : c.shared.closed = true) : ReconnectStep c epoch .recheckClosed c .done
  | unclosed (h : c.shared.closed = false) : ReconnectStep c epoch .recheckClosed c .recheckStatus
  | settled (h : c.shared.status ≠ .reconnecting) : ReconnectStep c epoch .recheckStatus c .done
  | unsettled (h : c.shared.status = .reconnecting) :
    ReconnectStep c epoch .recheckStatus c (.starting .checkClosed)

inductive ReceiveStep (c : Client) : ReceivePhase → Client → ReceivePhase → Prop where
  | settle (r : Response) :
    ReceiveStep c .idle (c.update fun s => { s with pending := r.settle s.pending }) .idle
  | reply (response : Response) : ReceiveStep c .idle c (.replying response .request)
  | handle (registry : Registry) (calls : List HandlerCall) (id : Option Json)
    (result : HandlerResult) :
    ReceiveStep c .idle (c.update fun s => { s with registry, calls }) (.handling id result)
  | skip : ReceiveStep c .idle c .idle
  | stop : ReceiveStep c .idle c (.disconnecting .detach)
  | handled (id : Option Json) (result : HandlerResult) :
    ReceiveStep c (.handling id result) c
      (id.elim .idle fun id => .replying (result.reply id) .request)

inductive HeartStep (c : Client) (g : Generation) : HeartPhase → Client → HeartPhase → Prop where
  | tick : HeartStep c g .ticking c .checkClosed
  | stop : HeartStep c g .ticking c .done
  | closed (h : c.shared.closed = true) : HeartStep c g .checkClosed c .done
  | probe (h : c.shared.closed = false) : HeartStep c g .checkClosed c (.probing .start)
  | raise : HeartStep c g .raise (c.update (·.cancel (.generation g))) .done

inductive DiscardStep (c : Client) : DiscardPhase → Client → DiscardPhase → Prop where
  | close {c' : Client} {p p' : ClosePhase} (h : c.beginClose p = some (c', p')) :
    DiscardStep c (.closing p) c' (.closing p')
  | part (tasks : List TaskId) : DiscardStep c (.closing (.request tasks)) c (.abort tasks)
  | abort (tasks : List TaskId) : DiscardStep c (.abort tasks) (tasks.foldl kill c) .fail
  | fail : DiscardStep c .fail (c.update Shared.failAll) .done

/-- A task that opens a link. -/
inductive OpenFrame where
  | connect (epoch : Nat)
  | reconnect (epoch : Nat)

def OpenFrame.epoch : OpenFrame → Nat
  | connect epoch => epoch
  | reconnect epoch => epoch

def OpenFrame.next : OpenFrame → Next OpenPhase (Except Failure Unit) → Task
  | connect epoch, .phase p => .connect (.opening epoch p)
  | connect _, .over (.ok ()) => .connect (.done (.ok ()))
  | connect _, .over (.error failure) => .connect (.failing .mark failure)
  | reconnect epoch, .phase p => .reconnect epoch (.opening p)
  | reconnect epoch, .over (.ok ()) => .reconnect epoch .clear
  | reconnect epoch, .over (.error _) => .reconnect epoch .checkClosed

/-- A task that closes the client. -/
inductive CloseFrame where
  | connect (url : Url)
  | failed (failure : Failure)
  | close

def CloseFrame.next : CloseFrame → Next ClosePhase Unit → Task
  | connect url, .phase p => .connect (.closing url p)
  | connect url, .over () => .connect (.setEndpoint url)
  | failed failure, .phase p => .connect (.failing p failure)
  | failed failure, .over () => .connect (.done (.error failure))
  | close, .phase p => .close (some p)
  | close, .over () => .close none

/-- A task that calls the peer. -/
inductive CallFrame where
  | call (spec : CallSpec)
  | heart (generation : Generation)

def CallFrame.spec (config : Config) : CallFrame → CallSpec
  | call spec => spec
  | heart generation => .heartbeat config generation

def CallFrame.next : CallFrame → Next CallPhase (Option Outcome) → Task
  | call spec, .phase p => .call spec p
  | call spec, .over outcome => .call spec (.done outcome)
  | heart g, .phase p => .heart g (.probing p)
  | heart g, .over (some (.ok _)) => .heart g .ticking
  | heart g, .over (some (.error .cancelled)) => .heart g .done
  | heart g, .over (some (.error _)) => .heart g .raise
  | heart g, .over none => .heart g .done

/-- A task that starts a reconnect task. -/
inductive StartFrame where
  | receive (generation : Generation)
  | reconnect (epoch : Nat)

def StartFrame.next : StartFrame → Next StartPhase Unit → Task
  | receive g, .phase p => .receive g (.disconnecting (.starting p))
  | receive g, .over () => .receive g .done
  | reconnect epoch, .phase p => .reconnect epoch (.starting p)
  | reconnect epoch, .over () => .reconnect epoch .done

def passNext (g : Generation) : Next DisconnectPhase Unit → Task
  | .phase p => .receive g (.disconnecting p)
  | .over () => .receive g .done

def replyNext (g : Generation) (response : Response) :
    Next SendPhase (Except Failure Unit) → Task
  | .phase p => .receive g (.replying response p)
  | .over _ => .receive g .idle

/-- The steps of a task: what becomes of the client, and of the task itself. -/
inductive TaskStep (c : Client) (t : TaskId) (choice : Choice) : Task → Client → Task → Prop where
  | opening (f : OpenFrame) {c' : Client} {p : OpenPhase}
    {next : Next OpenPhase (Except Failure Unit)} (h : OpenStep c t f.epoch p c' next) :
    TaskStep c t choice (f.next (.phase p)) c' (f.next next)
  | closing (f : CloseFrame) {c' : Client} {p : ClosePhase} {next : Next ClosePhase Unit}
    (h : CloseStep c t p c' next) : TaskStep c t choice (f.next (.phase p)) c' (f.next next)
  | calling (f : CallFrame) {c' : Client} {p : CallPhase} {next : Next CallPhase (Option Outcome)}
    (h : CallStep c t (f.spec c.shared.config) choice p c' next)
    (user : choice = .dropped → ∃ spec, f = .call spec) :
    TaskStep c t choice (f.next (.phase p)) c' (f.next next)
  | starting (f : StartFrame) {c' : Client} {p : StartPhase} {next : Next StartPhase Unit}
    (h : StartStep c p c' next) : TaskStep c t choice (f.next (.phase p)) c' (f.next next)
  | disconnecting (g : Generation) {c' : Client} {p : DisconnectPhase}
    {next : Next DisconnectPhase Unit} (h : DisconnectStep c t g p c' next) :
    TaskStep c t choice (passNext g (.phase p)) c' (passNext g next)
  | replying (g : Generation) (response : Response) {c' : Client} {p : SendPhase}
    {next : Next SendPhase (Except Failure Unit)} (h : SendStep c t response.wire p c' next) :
    TaskStep c t choice (replyNext g response (.phase p)) c' (replyNext g response next)
  | connect {c' : Client} {p p' : ConnectPhase} (h : ConnectStep c p c' p') :
    TaskStep c t choice (.connect p) c' (.connect p')
  | receive (g : Generation) {c' : Client} {p p' : ReceivePhase} (h : ReceiveStep c p c' p') :
    TaskStep c t choice (.receive g p) c' (.receive g p')
  | heart (g : Generation) {c' : Client} {p p' : HeartPhase} (h : HeartStep c g p c' p') :
    TaskStep c t choice (.heart g p) c' (.heart g p')
  | reconnect (epoch : Nat) {c' : Client} {p p' : ReconnectPhase}
    (h : ReconnectStep c epoch p c' p') :
    TaskStep c t choice (.reconnect epoch p) c' (.reconnect epoch p')
  | discard {c' : Client} {p p' : DiscardPhase} (h : DiscardStep c p c' p') :
    TaskStep c t choice (.discard p) c' (.discard p')

theorem sendStep_cases {text : String} {p : SendPhase}
    {next : Next SendPhase (Except Failure Unit)}
    (h : c.sendStep t text choice p = some (c', next)) : SendStep c t text p c' next := by
  revert h
  fun_cases sendStep c t text choice p
  all_goals
    intro h
    cases h
  case case1 => exact .ask
  case case4 hheld g hsink => exact .begin (by simpa using hheld) hsink
  case case5 hheld hsink => exact .unconnected (by simpa using hheld) hsink
  case case7 g => exact .written g
  case case8 g report => exact .broken g report

theorem openStep_cases {epoch : Nat} {p : OpenPhase} {next : Next OpenPhase (Except Failure Unit)}
    (h : c.openStep t epoch choice p = some (c', next)) : OpenStep c t epoch p c' next := by
  revert h
  fun_cases openStep c t epoch choice p
  all_goals
    intro h
    cases h
  case case22 hheld hstale => exact .stale (by simpa using hheld) hstale
  case case23 hheld hstale next =>
    rw [install_eq]
    exact .install (by simpa using hheld) (by simpa using hstale)
  case case25 hheld => exact .late (by simpa using hheld)
  all_goals first
    | exact .look rfl rfl
    | exact .fail _ rfl
    | exact .dialed _
    | exact .ask
    | exact .failRetired
    | exact .resetAttempts
    | exact .publish

theorem closeStep_cases {p : ClosePhase} {next : Next ClosePhase Unit}
    (h : c.closeStep t choice p = some (c', next)) : CloseStep c t p c' next := by
  revert h
  fun_cases closeStep c t choice p
  all_goals intro h
  case case17 =>
    obtain ⟨⟨c₁, p₁⟩, hbegin, heq⟩ := Option.map_eq_some_iff.1 h
    cases heq
    cases p with
    | mark | bump | detach | publish d =>
      cases hbegin
      constructor
    | signal d =>
      cases hbegin
      simp only [signalDetached_eq]
      exact .signal d
    | _ => cases hbegin
  all_goals cases h
  case case4 hheld next => exact .take _ (by simpa using hheld)
  case case12 task tasks hdone => exact .join task tasks hdone
  all_goals constructor

theorem admission_eq_some_iff {status : Status} {next : Next CallPhase (Option Outcome)} :
    admission status = some next ↔
      (status = .opened ∧ next = .phase .allocate) ∨
        (status = .closed ∧ next = .over (some (.error .clientClosed))) := by
  cases status <;> simp [admission, eq_comm]

theorem callStep_cases {spec : CallSpec} {p : CallPhase} {next : Next CallPhase (Option Outcome)}
    (h : c.callStep t spec choice p = some (c', next)) : CallStep c t spec choice p c' next := by
  revert h
  fun_cases callStep c t spec choice p
  all_goals intro h
  case case7 =>
    cases h
    cases hadmission : admission c.shared.status with
    | none => exact .look rfl rfl
    | some next =>
      obtain ⟨hopened, rfl⟩ | ⟨-, rfl⟩ := admission_eq_some_iff.1 hadmission
      · exact .enter rfl hopened
      · exact .turnedAway rfl (by rintro ⟨⟩)
  case case9 =>
    obtain ⟨next, hadmission, h⟩ := Option.map_eq_some_iff.1 h
    cases h
    obtain ⟨hopened, rfl⟩ | ⟨-, rfl⟩ := admission_eq_some_iff.1 hadmission
    · exact .enter rfl hopened
    · exact .turnedAway rfl (by rintro ⟨⟩)
  case case23 id n p hdropped =>
    obtain ⟨⟨c₁, next⟩, hsend, h⟩ := Option.map_eq_some_iff.1 h
    have hcase := sendStep_cases hsend
    rcases next with p' | ⟨failure | _⟩ <;> cases h
    · exact .send id n hcase
    · exact .unsent id n hcase
    · exact .sent id n hcase
  all_goals cases h
  case case1 | case4 | case11 | case12 => exact .turnedAway rfl (by rintro ⟨⟩)
  case case14 => exact .turnedAway rfl fun _ => rfl
  case case2 | case5 => exact .look rfl rfl
  case case16 => exact .allocate
  case case18 h => exact .register h
  case case22 id n p hp => exact .dropSending id n hp rfl
  case case24 h => exact .answered h
  case case25 h => exact .forgotten h
  case case19 id failure h => exact .refuse id failure
  case case27 n h => exact .late n
  case case29 n h => exact .cancelled n
  case case31 n => exact .dropWaiting n rfl
  case case33 n outcome => exact .leave n outcome

theorem startStep_cases {p : StartPhase} {next : Next StartPhase Unit}
    (h : c.startStep choice p = some (c', next)) : StartStep c p c' next := by
  revert h
  fun_cases startStep c choice p
  all_goals
    intro h
    cases h
  case case1 =>
    split
    next h => exact .closed h
    next h => exact .unclosed (by simpa using h)
  case case3 h => exact .taken h
  case case4 h => exact .claim (by simpa using h)
  case case6 => exact .spawn

theorem disconnectStep_cases {g : Generation} {p : DisconnectPhase}
    {next : Next DisconnectPhase Unit} (h : c.disconnectStep t g choice p = some (c', next)) :
    TaskStep c t choice (passNext g (.phase p)) c' (passNext g next) := by
  have pass {p : DisconnectPhase} {c' : Client} {next : Next DisconnectPhase Unit}
      (h : DisconnectStep c t g p c' next) :
      TaskStep c t choice (passNext g (.phase p)) c' (passNext g next) := .disconnecting g h
  revert h
  fun_cases disconnectStep c t g choice p
  all_goals intro h
  case case18 p =>
    obtain ⟨⟨c₁, next⟩, hstart, h⟩ := Option.map_eq_some_iff.1 h
    have hcase : TaskStep c t choice _ _ _ := .starting (.receive g) (startStep_cases hstart)
    rcases next with p' | _ <;> cases h <;> exact hcase
  all_goals cases h
  case case1 installed hinstalled hg =>
    exact pass (.retired fun old hold => hg)
  case case2 installed hinstalled hg => exact pass (.detach hinstalled (Decidable.not_not.1 hg))
  case case3 hinstalled => exact pass (.retired (by simp [hinstalled]))
  case case7 =>
    split
    next h => exact pass (.closed h)
    next h => exact pass (.unclosed (by simpa using h))
  case case14 hheld => exact pass (.clear _ (by simpa using hheld))
  case case16 closed =>
    cases closed with
    | true => exact pass .failClosed
    | false => exact pass .fail
  all_goals exact pass (by constructor)

theorem receiveText_cases (c : Client) (text : String) :
    ReceiveStep c .idle (c.receiveText text).1 (c.receiveText text).2 := by
  fun_cases receiveText c text
  case case2 r _ => exact .settle r
  case case4 response _ => exact .reply response
  case case5 r _ _ call result registry _ => exact .handle registry _ r.id result
  all_goals exact .skip

theorem receiveStep_cases {g : Generation} {p p' : ReceivePhase}
    (h : c.receiveStep t g choice p = some (c', p')) :
    TaskStep c t choice (.receive g p) c' (.receive g p') := by
  revert h
  fun_cases receiveStep c t g choice p
  all_goals intro h
  case case1 text =>
    have hcase := receiveText_cases c text
    rw [Option.some.inj h] at hcase
    exact .receive g hcase
  case case8 response p =>
    obtain ⟨⟨c₁, next⟩, hsend, h⟩ := Option.map_eq_some_iff.1 h
    have hcase : TaskStep c t choice _ _ _ := .replying g response (sendStep_cases hsend)
    rcases next with p' | _ <;> cases h <;> exact hcase
  case case9 p =>
    obtain ⟨⟨c₁, next⟩, hpass, h⟩ := Option.map_eq_some_iff.1 h
    have hcase := disconnectStep_cases hpass
    rcases next with p' | _ <;> cases h <;> exact hcase
  all_goals cases h
  case case2 f hf =>
    split
    · exact .receive g .stop
    · exact .receive g .skip
  case case3 => exact .receive g .stop
  case case6 id result => exact .receive g (.handled id result)

theorem connectStep_cases {p p' : ConnectPhase} (h : c.connectStep t choice p = some (c', p')) :
    TaskStep c t choice (.connect p) c' (.connect p') := by
  revert h
  fun_cases connectStep c t choice p
  all_goals intro h
  case case4 url p =>
    obtain ⟨⟨c₁, next⟩, hclose, h⟩ := Option.map_eq_some_iff.1 h
    have hcase : TaskStep c t choice _ _ _ := .closing (.connect url) (closeStep_cases hclose)
    rcases next with p' | _ <;> cases h <;> exact hcase
  case case15 epoch p =>
    obtain ⟨⟨c₁, next⟩, hopen, h⟩ := Option.map_eq_some_iff.1 h
    have hcase : TaskStep c t choice _ _ _ := .opening (.connect epoch) (openStep_cases hopen)
    rcases next with p' | ⟨_ | _⟩ <;> cases h <;> exact hcase
  case case16 p failure =>
    obtain ⟨⟨c₁, next⟩, hclose, h⟩ := Option.map_eq_some_iff.1 h
    have hcase : TaskStep c t choice _ _ _ := .closing (.failed failure) (closeStep_cases hclose)
    rcases next with p' | _ <;> cases h <;> exact hcase
  all_goals cases h
  all_goals exact .connect (by constructor)

theorem reconnectStep_cases {epoch : Nat} {p p' : ReconnectPhase}
    (h : c.reconnectStep t epoch choice p = some (c', p')) :
    TaskStep c t choice (.reconnect epoch p) c' (.reconnect epoch p') := by
  revert h
  fun_cases reconnectStep c t epoch choice p
  all_goals intro h
  case case16 p =>
    obtain ⟨⟨c₁, next⟩, hopen, h⟩ := Option.map_eq_some_iff.1 h
    have hcase : TaskStep c t choice _ _ _ := .opening (.reconnect epoch) (openStep_cases hopen)
    rcases next with p' | ⟨_ | _⟩ <;> cases h <;> exact hcase
  case case23 p =>
    obtain ⟨⟨c₁, next⟩, hstart, h⟩ := Option.map_eq_some_iff.1 h
    have hcase : TaskStep c t choice _ _ _ := .starting (.reconnect epoch) (startStep_cases hstart)
    rcases next with p' | _ <;> cases h <;> exact hcase
  case case6 sample hsample attempt next =>
    obtain ⟨rfl, rfl⟩ := Prod.mk.inj (Option.some.inj h)
    cases hdelay : c.shared.config.backoff.delay? attempt sample with
    | none =>
      simp only [next, hdelay]
      exact .reconnect epoch (.breakOff (by simpa using hsample) hdelay)
    | some delay =>
      simp only [next, hdelay]
      exact .reconnect epoch (.count attempt delay)
  all_goals cases h
  all_goals apply TaskStep.reconnect epoch
  case case1 | case12 =>
    split
    next h => exact .leave rfl (.inl h)
    next => exact .look rfl rfl
  case case3 =>
    split
    next => exact .look rfl rfl
    next h => exact .leave rfl (.inr h)
  case case8 => exact .look rfl rfl
  case case10 h => exact .leave rfl (.inr h)
  case case14 =>
    split
    next => exact .dial
    next h => exact .leave rfl (.inr h)
  case case17 => exact .clear
  case case19 =>
    split
    next h => exact .closed h
    next h => exact .unclosed (by simpa using h)
  case case21 =>
    split
    next h => exact .unsettled h
    next h => exact .settled h

theorem heartStep_cases {g : Generation} {p p' : HeartPhase}
    (h : c.heartStep t g choice p = some (c', p')) :
    TaskStep c t choice (.heart g p) c' (.heart g p') := by
  revert h
  fun_cases heartStep c t g choice p
  all_goals intro h
  case case8 p hdropped =>
    obtain ⟨⟨c₁, next⟩, hcall, h⟩ := Option.map_eq_some_iff.1 h
    have hcase : TaskStep c t choice _ _ _ :=
      .calling (.heart g) (callStep_cases hcall) fun h => (hdropped h).elim
    rcases next with p' | ⟨_ | failure | _⟩
    case over.some.error => cases failure <;> cases h <;> exact hcase
    all_goals
      cases h
      exact hcase
  all_goals cases h
  all_goals apply TaskStep.heart g
  case case1 => exact .tick
  case case2 => exact .stop
  case case5 =>
    split
    next h => exact .closed h
    next h => exact .probe (by simpa using h)
  case case9 => exact .raise

theorem discardStep_cases {p p' : DiscardPhase} (h : c.discardStep choice p = some (c', p')) :
    DiscardStep c p c' p' := by
  unfold discardStep at h
  cases p with
  | closing q =>
    dsimp only at h
    split at h
    · cases h
      exact .part _
    · obtain ⟨⟨c₁, q'⟩, hbegin, h⟩ := Option.map_eq_some_iff.1 h
      cases h
      exact .close hbegin
    · cases h
  | abort tasks =>
    dsimp only at h
    split at h
    · cases h
      exact .abort tasks
    · cases h
  | fail =>
    dsimp only at h
    split at h
    · cases h
      exact .fail
    · cases h
  | done => cases h

/-- Every step of a task is one of the cases. -/
theorem taskStep_cases {task task' : Task} (h : c.taskStep t choice task = some (c', task')) :
    TaskStep c t choice task c' task' := by
  cases task with
  | connect p =>
    obtain ⟨⟨c₁, p'⟩, hstep, h⟩ := Option.map_eq_some_iff.1 h
    cases h
    exact connectStep_cases hstep
  | close p =>
    cases p with
    | none => cases h
    | some p =>
      obtain ⟨⟨c₁, next⟩, hstep, h⟩ := Option.map_eq_some_iff.1 h
      have hcase : TaskStep c t choice _ _ _ := .closing .close (closeStep_cases hstep)
      rcases next with p' | _ <;> cases h <;> exact hcase
  | call spec p =>
    obtain ⟨⟨c₁, next⟩, hstep, h⟩ := Option.map_eq_some_iff.1 h
    have hcase : TaskStep c t choice _ _ _ :=
      .calling (.call spec) (callStep_cases hstep) fun _ => ⟨spec, rfl⟩
    rcases next with p' | outcome <;> cases h <;> exact hcase
  | receive g p =>
    obtain ⟨⟨c₁, p'⟩, hstep, h⟩ := Option.map_eq_some_iff.1 h
    cases h
    exact receiveStep_cases hstep
  | heart g p =>
    obtain ⟨⟨c₁, p'⟩, hstep, h⟩ := Option.map_eq_some_iff.1 h
    cases h
    exact heartStep_cases hstep
  | reconnect epoch p =>
    obtain ⟨⟨c₁, p'⟩, hstep, h⟩ := Option.map_eq_some_iff.1 h
    cases h
    exact reconnectStep_cases hstep
  | discard p =>
    obtain ⟨⟨c₁, p'⟩, hstep, h⟩ := Option.map_eq_some_iff.1 h
    cases h
    exact .discard (discardStep_cases hstep)

end Client
end DuplexRpc
