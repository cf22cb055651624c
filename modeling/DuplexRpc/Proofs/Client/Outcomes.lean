import DuplexRpc.Proofs.Client.Owing
import DuplexRpc.Proofs.Envelope.Results

/-!
What becomes of a handler's result. It is made a reply, written to the link, read by the client that
waits under the id, and settles the call there. What the caller gets depends on the result alone.
-/
namespace DuplexRpc

/-- No handler has a blank method. -/
def Registry.Named (r : Registry) : Prop :=
  ∀ method, r.has method = true → Text.isBlank method = false

theorem Registry.Named.register {r r' : Registry} {method : String} {handler : Handler}
    (h : r.Named) (hr : r.register method handler = .ok r') : r'.Named := by
  intro m hm
  rw [has, get?_register hr] at hm
  split at hm
  next heq =>
    unfold Registry.register at hr
    split at hr
    · cases hr
    next hblank => simpa [heq] using hblank
  next => exact h m hm

namespace Client

variable {config : Config} {c c' c₁ : Client} {t : TaskId} {g : Generation} {choice : Choice}
  {p' : ReceivePhase} {task task' : Task} {text id : String} {response : Response}
  {outcome : Outcome}

theorem receiveStep_idle_has (h : c.receiveStep t g choice .idle = some (c₁, p')) :
    c₁.shared.registry.has = c.shared.registry.has := by
  revert h
  generalize hp : ReceivePhase.idle = p
  fun_cases receiveStep c t g choice p
  all_goals intro h
  case case1 text =>
    obtain ⟨rfl, rfl⟩ := Prod.mk.inj (Option.some.inj h)
    exact (receiveText_frame c text).1
  case case2 | case3 =>
    obtain ⟨rfl, rfl⟩ := Prod.mk.inj (Option.some.inj h)
    rfl
  case case4 | case5 => cases h
  all_goals cases hp

theorem Reachable.named (run : Reachable config c) : c.shared.registry.Named := by
  induction run with
  | fresh => exact nofun
  | @move c c' m before h ih =>
    cases m with
    | start request | cancel token =>
      cases h
      exact ih
    | register method handler =>
      unfold apply Client.register at h
      cases hr : c.shared.registry.register method handler with
      | error failure => simp [hr, Except.map, Except.toOption] at h
      | ok registry =>
        simp only [hr, Except.map, Except.toOption, Option.some.injEq] at h
        exact h ▸ ih.register hr
    | step t choice =>
      obtain ⟨task, c₁, task', ht, hstep, rfl⟩ := step_eq_some_iff.1 h
      by_cases hidle : ∃ g, task = .receive g .idle
      · obtain ⟨g, rfl⟩ := hidle
        obtain ⟨⟨c₂, p'⟩, hreceive, heq⟩ := Option.map_eq_some_iff.1 hstep
        cases heq
        intro method hmethod
        exact ih method (receiveStep_idle_has hreceive ▸ hmethod)
      · exact (taskStep_cases hstep).keepsSettings.registry (not_exists.1 hidle) ▸ ih

/-- A call that waits under the id gets the outcome when the receiver of its client takes the text,
and ends with it. -/
def Settles (text id : String) (outcome : Outcome) : Prop :=
  ∀ (d : Client) (u : TaskId) (g : Generation) (n : Nat),
    d.tasks[u]? = some (.receive g .idle) → d.shared.pending.find? id = some n →
    d.shared.pending.slot? n = some .waiting →
    ∃ d', d.step u (.frame (.text text)) = some d' ∧
      d'.shared.pending.slot? n = some (.answered outcome) ∧
      ∀ (v : TaskId) spec, d.tasks[v]? = some (.call spec (.awaitAnswer n)) →
        ∃ d'', d'.steps v [.settled, .run] = some d'' ∧
          d''.tasks[v]? = some (.call spec (.done (some outcome)))

theorem exists_steps_of_answered {n : Nat} {spec : CallSpec}
    (ht : c.tasks[t]? = some (.call spec (.awaitAnswer n)))
    (hslot : c.shared.pending.slot? n = some (.answered outcome)) :
    ∃ c', c.steps t [.settled, .run] = some c' ∧
      c'.tasks[t]? = some (.call spec (.done (some outcome))) := by
  have hleaving : c.taskStep t .settled (.call spec (.awaitAnswer n)) =
      some (c, .call spec (.leaving n (some outcome))) := by
    simp [taskStep, callStep, hslot]
  obtain ⟨c₁, h₁, ht₁, -⟩ := exists_step_of_taskStep ht hleaving
  have hdone : c₁.taskStep t .run (.call spec (.leaving n (some outcome))) =
      some (c₁.leave n, .call spec (.done (some outcome))) := rfl
  obtain ⟨c₂, h₂, ht₂, -⟩ := exists_step_of_taskStep ht₁ hdone
  exact ⟨c₂, by simp [steps, h₁, h₂], ht₂⟩

theorem settles_of_parse (hparse : Envelope.parse text = some (.response response))
    (hid : response.id = .string id) : Settles text id response.outcome := by
  intro d u g n hu hfind hslot
  obtain ⟨d', h, -, hshared⟩ := exists_step_of_text hu text
  have hanswered : d'.shared.pending.slot? n = some (.answered response.outcome) := by
    have hkey : Envelope.idKey response.id = some id := by rw [hid]; rfl
    rw [hshared, receiveText_pending, PendingTable.settleText, hparse]
    simp [Response.settle, hkey, hfind, hslot, Slot.deliver]
  refine ⟨d', h, hanswered, fun v spec hv => exists_steps_of_answered ?_ hanswered⟩
  refine getElem?_unstepped (m := .step u (.frame (.text text))) h hv rfl fun choice heq => ?_
  cases heq
  cases hu.symm.trans hv

/-- A request gets a reply that gives the outcome to whoever waits for it. Whatever else goes on,
its receiver writes this reply or nothing, and at most once, until it takes the next text; and it
can write it if the link is up and nobody else is at the outbound slot. -/
def Brings (c : Client) (t : TaskId) (request id : String) (outcome : Outcome) : Prop :=
  ∃ reply, Settles reply id outcome ∧
    (∀ ms c', (∀ choice, .step t choice ∈ ms → choice.texts = []) →
      c.follow (.step t (.frame (.text request)) :: ms) = some c' →
      c'.writtenBy t = c.writtenBy t ∨
        ∃ g, c'.writtenBy t = c.writtenBy t ++ [⟨g, t, .text reply⟩]) ∧
    ∀ g, c.tasks[t]? = some (.receive g .idle) → c.shared.outbound.sink = some g →
      c.shared.outbound.holder = none → c.shared.outbound.queue = [] →
      ∃ choices c', c.steps t (.frame (.text request) :: choices) = some c' ∧
        choices.flatMap Choice.texts = [] ∧
        c'.shared.sent = c.shared.sent ++ [⟨g, t, .text reply⟩]

theorem brings_of_owed (ht : c.tasks[t]? = some (.receive g .idle))
    (howed : (c.receiveText text).2.owed = [response])
    (hsettles : Settles response.wire id outcome) : c.Brings t text id outcome := by
  refine ⟨response.wire, hsettles, fun ms c' hms hfollow => ?_, fun g' ht' hsink hfree hqueue => ?_⟩
  · obtain ⟨c₁, htaken, hfollow⟩ := follow_cons.1 hfollow
    obtain ⟨p, -, howes⟩ := (owes_of_text ht howed htaken).follow hfollow hms
    exact howes.elim (fun h => .inl h.2) And.right
  · exact exists_steps_of_owed ht' howed hfree hqueue hsink

end Client

/-- The result of the next call of the handler. -/
def Service.nextResult (service : Service) (params : Json) : HandlerResult :=
  service.handler.respond (service.calls + 1) params

namespace Client

/-- A receiver is about to take a request, under an id of the peer's, for a method that is
registered. -/
structure Dispatches (c : Client) (t : TaskId) (text id : String) (r : DuplexRpc.Request)
    (service : Service) : Prop where
  reachable : ∃ config, Reachable config c
  reading : ∃ g, c.tasks[t]? = some (.receive g .idle)
  parsed : Envelope.parse text = some (.request r)
  version : r.version = "2.0"
  under : r.id = some (.string id)
  marked : ∃ key, id = "s" ++ key
  registered : c.shared.registry.get? r.method = some service

variable {c : Client} {t : TaskId} {text id : String} {r : DuplexRpc.Request} {service : Service}

/-- The heartbeat is answered without a handler. -/
theorem Dispatches.heartbeat (h : c.Dispatches t text id r service)
    (hmethod : r.method = "rpc.heartbeat") : c.Brings t text id (.ok .empty) := by
  obtain ⟨g, ht⟩ := h.reading
  have hverdict : r.verdict c.shared.registry = .reply (.success (.string id) .empty) := by
    have hblank : Text.isBlank "rpc.heartbeat" = false := by decide +kernel
    simp [Request.verdict, h.version, hmethod, Protocol.version, hblank, Protocol.heartbeatMethod,
      h.under]
  have howed : (c.receiveText text).2.owed = [.success (.string id) .empty] := by
    simp only [receiveText, h.parsed, hverdict]
    rfl
  have hread : (Response.success (.string id) .empty).IsReadable :=
    Response.isReadable_success.2 ⟨by decide, fun _ hx => by cases hx⟩
  exact brings_of_owed ht howed (settles_of_parse (Response.parse_wire_success hread) rfl)

theorem Dispatches.handles (h : c.Dispatches t text id r service)
    (hmethod : r.method ≠ "rpc.heartbeat") :
    (c.receiveText text).2 = .handling (some (.string id)) (service.nextResult r.params) ∧
      (c.receiveText text).1.shared.calls =
        c.shared.calls ++ [⟨r.method, r.params, service.handler.logged⟩] := by
  have hhas : c.shared.registry.has r.method = true := by simp [Registry.has, h.registered]
  obtain ⟨config, run⟩ := h.reachable
  obtain ⟨key, hkey⟩ := h.marked
  have hserver : r.hasServerId = true := r.hasServerId_iff.2 (.inr ⟨key, by rw [h.under, hkey]⟩)
  have hverdict : r.verdict c.shared.registry = .handle :=
    (r.verdict_eq_handle_iff _).2 ⟨h.version, run.named _ hhas, hmethod, hserver, hhas⟩
  simp [receiveText, h.parsed, hverdict, Registry.call, h.registered, h.under, update,
    Service.nextResult]

theorem Dispatches.brings (h : c.Dispatches t text id r service)
    (hmethod : r.method ≠ "rpc.heartbeat")
    (hread : ((service.nextResult r.params).reply (.string id)).IsReadable) :
    c.Brings t text id (service.nextResult r.params).arrived := by
  obtain ⟨g, ht⟩ := h.reading
  obtain ⟨response, hparse, hid, houtcome⟩ := HandlerResult.parse_reply hread
  have howed : (c.receiveText text).2.owed =
      [(service.nextResult r.params).reply (.string id)] := by
    rw [(h.handles hmethod).1]
    rfl
  exact brings_of_owed ht howed (houtcome ▸ settles_of_parse hparse hid)

/-- The outcome of a handler arrives. For a registered method the handler is called once, with the
params, and its result reaches the caller as `HandlerResult.arrived` has it, if its reply can be
read at all; only the heartbeat is answered without it. An error that has arrived goes through a
further client, whose handler fails with it, as it is. -/
theorem handler_outcomes_arrive (h : c.Dispatches t text id r service) :
    (r.method = "rpc.heartbeat" → c.Brings t text id (.ok .empty)) ∧
    (r.method ≠ "rpc.heartbeat" →
      (∃ c', c.step t (.frame (.text text)) = some c' ∧ c'.shared.calls =
        c.shared.calls ++ [⟨r.method, r.params, service.handler.logged⟩]) ∧
      (((service.nextResult r.params).reply (.string id)).IsReadable →
        c.Brings t text id (service.nextResult r.params).arrived ∧
        ∀ error, (service.nextResult r.params).arrived = .error (.rpc error) →
          ∀ (c' : Client) (t' : TaskId) (text' id' : String) (r' : DuplexRpc.Request)
            (service' : Service),
            c'.Dispatches t' text' id' r' service' → r'.method ≠ "rpc.heartbeat" →
            service'.nextResult r'.params = .failed (.rpc error) →
            c'.Brings t' text' id' (.error (.rpc error)))) := by
  refine ⟨h.heartbeat, fun hmethod => ⟨?_, fun hread => ⟨h.brings hmethod hread, ?_⟩⟩⟩
  · obtain ⟨g, ht⟩ := h.reading
    obtain ⟨c', htaken, -, hshared⟩ := exists_step_of_text ht text
    exact ⟨c', htaken, by rw [hshared, (h.handles hmethod).2]⟩
  · intro error harrived c' t' text' id' r' service' h' hmethod' hresult
    obtain ⟨hread', harrived'⟩ := HandlerResult.relay harrived hread id'
    rw [← hresult] at hread' harrived'
    exact harrived' ▸ h'.brings hmethod' hread'

/-- A connect, with a handler for the method `m` that fails with this error. -/
def failingWith (error : ErrorObject) : List Move :=
  .register "m" (.failing (.rpc error)) :: connecting 0

/-- A request for it. -/
def failingRequest : String := "\x7b\"jsonrpc\":\"2.0\",\"id\":\"s1\",\"method\":\"m\"\x7d"

theorem dispatches_of_failingWith (error : ErrorObject)
    (h : ((fresh .standard).follow (failingWith error)).any (fun c =>
      (c.tasks[1]?).bind Task.reading? = some 2 ∧ (c.shared.registry.get? "m").any (fun service =>
        service.nextResult .empty = .failed (.rpc error)) = true) = true) :
    ∃ (c : Client) (service : Service),
      c.Dispatches 1 failingRequest "s1" ⟨"2.0", some (.string "s1"), "m", .empty⟩ service ∧
        service.nextResult .empty = .failed (.rpc error) := by
  obtain ⟨c, hc, hfacts⟩ := Option.any_eq_true _ _ |>.1 h
  obtain ⟨hreading, hservice⟩ := of_decide_eq_true hfacts
  obtain ⟨service, hservice, hresult⟩ := Option.any_eq_true _ _ |>.1 hservice
  have hparsed : Envelope.parse failingRequest =
      some (.request ⟨"2.0", some (.string "s1"), "m", .empty⟩) := by
    decide +kernel
  exact ⟨c, service, ⟨⟨_, reachable_iff_follow.2 ⟨_, hc⟩⟩, ⟨2, idle_of_reading? hreading⟩, hparsed,
    rfl, rfl, ⟨"1", rfl⟩, hservice⟩, of_decide_eq_true hresult⟩

/-- A failure with null data, and its relay. -/
theorem handler_outcomes_arrive_relayed : ∃ (c c' : Client) (r : DuplexRpc.Request)
    (service service' : Service),
    c.Dispatches 1 failingRequest "s1" r service ∧
    service.nextResult r.params = .failed (.rpc ⟨7, "busy", some .null⟩) ∧
    c.Brings 1 failingRequest "s1" (.error (.rpc ⟨7, "busy", none⟩)) ∧
    c'.Dispatches 1 failingRequest "s1" r service' ∧
    service'.nextResult r.params = .failed (.rpc ⟨7, "busy", none⟩) ∧
    c'.Brings 1 failingRequest "s1" (.error (.rpc ⟨7, "busy", none⟩)) := by
  obtain ⟨c, service, h, hresult⟩ :=
    dispatches_of_failingWith ⟨7, "busy", some .null⟩ (by decide +kernel)
  obtain ⟨c', service', h', hresult'⟩ :=
    dispatches_of_failingWith ⟨7, "busy", none⟩ (by decide +kernel)
  have hread : ((service.nextResult .empty).reply (.string "s1")).IsReadable := by
    rw [hresult]
    exact Response.isReadable_failure.2 ⟨by decide, nofun⟩
  have harrived : (service.nextResult .empty).arrived = .error (.rpc ⟨7, "busy", none⟩) := by
    rw [hresult]
    rfl
  obtain ⟨hbrings, hrelay⟩ := ((handler_outcomes_arrive h).2 (by decide)).2 hread
  exact ⟨c, c', _, service, service', h, hresult, harrived ▸ hbrings, h', hresult',
    hrelay _ harrived c' 1 _ _ _ service' h' (by decide) hresult'⟩

end Client
end DuplexRpc
