import DuplexRpc.Proofs.Client.AfterClose
import DuplexRpc.Proofs.Client.Outcomes
import Mathlib.Data.String.Basic

/-!
What a client serves. The methods are kept in ascending order, each with the handler that was
registered for it last. Calls of handlers, the loss of links and everything else leave that alone,
so that the registrations alone decide which handler a request is given to.
-/
namespace DuplexRpc

namespace Registry

variable {r r' : Registry} {method m : String} {service : Service} {handler : Handler}
  {services : List (String × Service)}

theorem mem_place : m ∈ (place method service services).map (·.1) ↔
    m = method ∨ m ∈ services.map (·.1) := by
  fun_induction place method service services with
  | case1 => simp
  | case2 k s rest hlt => simp
  | case3 s rest hlt =>
    simp only [List.map_cons, List.mem_cons]
    tauto
  | case4 k s rest hlt hne ih =>
    simp only [List.map_cons, List.mem_cons, ih]
    tauto

theorem pairwise_place (h : (services.map (·.1)).Pairwise (· < ·)) :
    ((place method service services).map (·.1)).Pairwise (· < ·) := by
  fun_induction place method service services with
  | case1 => exact List.pairwise_singleton ..
  | case2 k s rest hlt =>
    refine List.pairwise_cons.2 ⟨fun m hm => ?_, h⟩
    obtain rfl | hm := List.mem_cons.1 hm
    · exact hlt
    · exact hlt.trans ((List.pairwise_cons.1 h).1 m hm)
  | case3 s rest hlt => exact h
  | case4 k s rest hlt hne ih =>
    obtain ⟨hleast, hrest⟩ := List.pairwise_cons.1 h
    refine List.pairwise_cons.2 ⟨fun m hm => ?_, ih hrest⟩
    obtain rfl | hm := mem_place.1 hm
    · exact lt_of_le_of_ne (not_lt.1 hlt) (Ne.symm hne)
    · exact hleast m hm

theorem mem_methods_iff : m ∈ r.methods ↔ (r.get? m).isSome = true := by
  simp [methods, get?, List.lookup_isSome_iff]

/-- The methods are in order, and each has the handler that is first in the list. -/
structure Keeps (r : Registry) (done : List (String × Handler)) : Prop where
  ascending : r.methods.Pairwise (· < ·)
  handlers : ∀ m, (r.get? m).map (·.handler) = done.lookup m

variable {done : List (String × Handler)}

theorem Keeps.register (h : r.Keeps done) (hr : r.register method handler = .ok r') :
    r'.Keeps ((method, handler) :: done) := by
  refine ⟨?_, fun m => ?_⟩
  · unfold Registry.register at hr
    split at hr <;> cases hr
    exact pairwise_place h.ascending
  · rw [get?_register hr, List.lookup_cons]
    by_cases hm : m = method
    · simp [hm]
    · simp [hm, beq_eq_false_iff_ne.2 hm, h.handlers]

/-- A call counts, and leaves the handler as it is. -/
theorem Keeps.call {params : Json} {call : HandlerCall} {result : HandlerResult}
    (h : r.Keeps done) (hcall : r.call method params = some (call, result, r')) :
    r'.Keeps done := by
  obtain ⟨service, hservice, heq⟩ := Option.map_eq_some_iff.1 hcall
  cases heq
  refine ⟨pairwise_place h.ascending, fun m => ?_⟩
  rw [get?, lookup_place, ← h.handlers]
  split
  next hm => rw [hm, hservice, Option.map_some, Option.map_some]
  next => rfl

theorem Keeps.mem_iff (h : r.Keeps done) : m ∈ r.methods ↔ ∃ handler, (m, handler) ∈ done := by
  rw [mem_methods_iff, ← Option.isSome_map, h.handlers, List.lookup_isSome_iff]
  simp [Prod.exists]

end Registry

/-- What a request under an id of the peer's calls for depends on its method alone. -/
theorem Request.verdict_of_server {r : Request} {rest : String} (registry : Registry)
    (hversion : r.version = "2.0") (hid : r.id = some (.string ("s" ++ rest))) :
    r.verdict registry =
      if Text.isBlank r.method then
        .reply (.failure (.string ("s" ++ rest)) (.invalidRequest "invalid request"))
      else if r.method = "rpc.heartbeat" then .reply (.success (.string ("s" ++ rest)) .empty)
      else if registry.has r.method then .handle
      else .reply (.failure (.string ("s" ++ rest)) (.methodNotFound r.method)) := by
  have hserver : r.hasServerId = true := r.hasServerId_iff.2 (.inr ⟨rest, hid⟩)
  simp [verdict, refuse, hversion, hid, hserver, Protocol.version, Protocol.heartbeatMethod]

namespace Client

variable {config : Config} {c c' c₁ : Client} {t : TaskId} {choice : Choice} {m : Move}
  {ms : List Move} {task task' : Task} {done : List (String × Handler)} {text : String}

def Move.registers : Move → Bool
  | .register _ _ => true
  | _ => false

/-- Where a run of the client leads to, and the registrations in it that succeeded, the last one
first. One that is refused leaves the client as it is. -/
inductive History (config : Config) : List (String × Handler) → Client → Prop where
  | fresh : History config [] (fresh config)
  | registered {done : List (String × Handler)} {c c' : Client} {method : String}
    {handler : Handler} (before : History config done c)
    (h : c.register method handler = .ok c') : History config ((method, handler) :: done) c'
  | refused {done : List (String × Handler)} {c : Client} {method : String} {handler : Handler}
    {failure : Failure} (before : History config done c)
    (h : c.register method handler = .error failure) : History config done c
  | moved {done : List (String × Handler)} {c c' : Client} {m : Move}
    (before : History config done c) (hm : m.registers = false)
    (h : c.apply m = some c') : History config done c'

theorem register_eq_error_iff {method : String} {handler : Handler} {failure : Failure} :
    c.register method handler = .error failure ↔
      Text.isBlank method = true ∧ failure = .invalidArgument "method is required" := by
  by_cases hblank : Text.isBlank method = true
  · simp [register, Registry.register, hblank, Except.map, Registry.blankMethod, eq_comm]
  · simp [register, Registry.register, hblank, Except.map]

theorem register_eq_ok_iff {method : String} {handler : Handler} :
    c.register method handler = .ok c' ↔ ∃ registry,
      c.shared.registry.register method handler = .ok registry ∧
        c' = c.update fun s => { s with registry } := by
  unfold register
  cases c.shared.registry.register method handler with
  | error failure => simp [Except.map]
  | ok registry => simp [Except.map, eq_comm]

theorem register_of_apply {method : String} {handler : Handler}
    (h : c.apply (.register method handler) = some c') : c.register method handler = .ok c' := by
  unfold apply at h
  cases hr : c.register method handler with
  | error failure => simp [hr, Except.toOption] at h
  | ok c₁ => simpa [hr, Except.toOption] using h

theorem History.reachable (history : History config done c) : Reachable config c := by
  induction history with
  | fresh => exact .fresh
  | registered before h ih => exact .move (.register _ _) ih (by rw [apply, h]; rfl)
  | refused before h ih => exact ih
  | moved before hm h ih => exact .move _ ih h

/-- A text leaves the handlers as they are, but it may count a call. -/
theorem keeps_receiveText (h : c.shared.registry.Keeps done) (text : String) :
    (c.receiveText text).1.shared.registry.Keeps done := by
  fun_cases receiveText c text
  case case5 hcall => exact h.call hcall
  all_goals exact h

theorem receiveStep_idle_keeps {g : Generation} {p' : ReceivePhase}
    (hstep : c.receiveStep t g choice .idle = some (c₁, p'))
    (h : c.shared.registry.Keeps done) : c₁.shared.registry.Keeps done := by
  by_cases htext : ∃ text, choice = .frame (.text text)
  · obtain ⟨text, rfl⟩ := htext
    exact (Prod.mk.inj (Option.some.inj hstep)).1 ▸ keeps_receiveText h text
  · cases choice with
    | frame f =>
      cases f with
      | text text => exact absurd ⟨text, rfl⟩ htext
      | _ =>
        cases hstep
        exact h
    | cancelled =>
      obtain ⟨-, heq⟩ := Option.ite_none_right_eq_some.1 hstep
      cases heq
      exact h
    | _ => cases hstep

theorem taskStep_keeps (hstep : c.taskStep t choice task = some (c₁, task'))
    (h : c.shared.registry.Keeps done) : c₁.shared.registry.Keeps done := by
  by_cases hidle : ∃ g, task = .receive g .idle
  · obtain ⟨g, rfl⟩ := hidle
    obtain ⟨⟨c₂, p'⟩, hreceive, heq⟩ := Option.map_eq_some_iff.1 hstep
    cases heq
    exact receiveStep_idle_keeps hreceive h
  · exact (taskStep_cases hstep).keepsSettings.registry (not_exists.1 hidle) ▸ h

theorem History.keeps (history : History config done c) : c.shared.registry.Keeps done := by
  induction history with
  | fresh => exact ⟨.nil, fun _ => rfl⟩
  | registered before h ih =>
    obtain ⟨registry, hr, rfl⟩ := register_eq_ok_iff.1 h
    exact ih.register hr
  | refused before h ih => exact ih
  | @moved done c c' m before hm h ih =>
    cases m with
    | start request | cancel token =>
      cases h
      exact ih
    | register method handler => cases hm
    | step t choice =>
      obtain ⟨task, c₁, task', ht, hstep, rfl⟩ := step_eq_some_iff.1 h
      exact (taskStep_keeps hstep ih :)

/-- Every receiver that takes a request under an id of the peer's goes by these registrations, the
last one first: the heartbeat is answered by itself; any other method is given to the handler that
was registered for exactly it last; and only a method without one is said not to be found, by the
code and the message for that. -/
def DispatchesBy (c : Client) (done : List (String × Handler)) : Prop :=
  ∀ (t : TaskId) (g : Generation) (text rest : String) (r : DuplexRpc.Request),
    c.tasks[t]? = some (.receive g .idle) → Envelope.parse text = some (.request r) →
    r.version = "2.0" → r.id = some (.string ("s" ++ rest)) →
    ∃ c' p, c.step t (.frame (.text text)) = some c' ∧ c'.tasks[t]? = some (.receive g p) ∧
      (r.method = "rpc.heartbeat" →
        p = .replying ⟨"2.0", .string ("s" ++ rest), some .empty, none⟩ .request ∧
          c'.shared = c.shared) ∧
      (r.method ≠ "rpc.heartbeat" → ∀ handler, done.lookup r.method = some handler →
        (∃ n, p = .handling (some (.string ("s" ++ rest))) (handler.respond n r.params)) ∧
          c'.shared.calls = c.shared.calls ++ [⟨r.method, r.params, handler.logged⟩]) ∧
      ((∀ handler, (r.method, handler) ∉ done) → c'.shared = c.shared) ∧
      (p = .replying ⟨"2.0", .string ("s" ++ rest), none,
          some ⟨-32601, "method \"" ++ r.method ++ "\" not found", none⟩⟩ .request ↔
        Text.isBlank r.method = false ∧ r.method ≠ "rpc.heartbeat" ∧
          ∀ handler, (r.method, handler) ∉ done)

theorem receiveText_reply {r : DuplexRpc.Request} {response : Response}
    (hparse : Envelope.parse text = some (.request r))
    (hverdict : r.verdict c.shared.registry = .reply response) :
    c.receiveText text = (c, .replying response .request) := by
  simp only [receiveText, hparse, hverdict]

theorem receiveText_handle {r : DuplexRpc.Request} {service : Service}
    (hparse : Envelope.parse text = some (.request r))
    (hverdict : r.verdict c.shared.registry = .handle)
    (hservice : c.shared.registry.get? r.method = some service) :
    c.receiveText text = (c.update fun s => { s with
      registry := ⟨Registry.place r.method { service with calls := service.calls + 1 }
        s.registry.services⟩
      calls := s.calls ++ [⟨r.method, r.params, service.handler.logged⟩] },
      .handling r.id (service.nextResult r.params)) := by
  simp [receiveText, hparse, hverdict, Registry.call, hservice, Service.nextResult, update]

theorem dispatchesBy_of_keeps (hkeeps : c.shared.registry.Keeps done)
    (hnamed : c.shared.registry.Named) : c.DispatchesBy done := by
  intro t g text rest r ht hparse hversion hid
  obtain ⟨c', hstep, ht', hshared⟩ := exists_step_of_text ht text
  refine ⟨c', _, hstep, ht', ?_⟩
  have hverdict := Request.verdict_of_server c.shared.registry hversion hid
  have hhas : c.shared.registry.has r.method = true ↔ ∃ handler, (r.method, handler) ∈ done := by
    rw [Registry.has, ← Registry.mem_methods_iff, hkeeps.mem_iff]
  have hlookup {handler} (h : done.lookup r.method = some handler) :
      ∃ service, c.shared.registry.get? r.method = some service ∧ service.handler = handler :=
    Option.map_eq_some_iff.1 ((hkeeps.handlers _).trans h)
  rw [hshared]
  split at hverdict
  next hblank =>
    -- a blank method has no handler, and is not the heartbeat
    have hnot : ¬c.shared.registry.has r.method = true := fun h => by
      rw [hnamed _ h] at hblank
      cases hblank
    have hheart : r.method ≠ "rpc.heartbeat" := by
      rintro heq
      rw [heq] at hblank
      exact absurd hblank (by decide +kernel)
    rw [receiveText_reply hparse hverdict]
    refine ⟨fun h => absurd h hheart, fun _ handler h => ?_, fun _ => rfl, ?_⟩
    · obtain ⟨service, hservice, -⟩ := hlookup h
      simp [Registry.has, hservice] at hnot
    · simp [hblank, Response.failure, ErrorObject.invalidRequest, ErrorObject.plain,
        Protocol.invalidRequest]
  next hblank =>
    split at hverdict
    next hheart =>
      rw [receiveText_reply hparse hverdict]
      exact ⟨fun _ => ⟨rfl, rfl⟩, fun h => absurd hheart h, fun _ => rfl,
        by simp [hheart, Response.success]⟩
    next hheart =>
      split at hverdict
      next hfound =>
        obtain ⟨service, hservice⟩ := Option.isSome_iff_exists.1 hfound
        have hsome := hhas.1 hfound
        rw [receiveText_handle hparse hverdict hservice]
        refine ⟨fun h => absurd h hheart, fun _ handler h => ?_, fun h => ?_, ?_⟩
        · obtain ⟨service', hservice', rfl⟩ := hlookup h
          cases hservice.symm.trans hservice'
          exact ⟨⟨service.calls + 1, by rw [hid]; rfl⟩, rfl⟩
        · obtain ⟨handler, hmem⟩ := hsome
          exact absurd hmem (h handler)
        · obtain ⟨handler, hmem⟩ := hsome
          simp only [reduceCtorEq, false_iff]
          exact fun h => h.2.2 handler hmem
      next hfound =>
        rw [receiveText_reply hparse hverdict]
        have hnone : ∀ handler, (r.method, handler) ∉ done := fun handler hmem =>
          hfound (hhas.2 ⟨handler, hmem⟩)
        refine ⟨fun h => absurd h hheart, fun _ handler h => ?_, fun _ => rfl, ?_⟩
        · obtain ⟨service, hservice, -⟩ := hlookup h
          simp [Registry.has, hservice] at hfound
        · simp [hblank, hheart, hnone, Response.failure, ErrorObject.methodNotFound,
            ErrorObject.plain, Protocol.version, Protocol.methodNotFound]

/-- The registrations decide what a client serves. Whatever else happens, the loss of links
included, its methods are in strictly ascending order those with a successful registration; a
registration fails exactly if its method is blank, and touches nothing but the handlers; and
requests are dispatched to the handler that was registered last. -/
theorem registrations_decide_dispatch (history : History config done c) :
    c.shared.registry.methods.Pairwise (· < ·) ∧
    (∀ method, method ∈ c.shared.registry.methods ↔ ∃ handler, (method, handler) ∈ done) ∧
    c.shared.registry.size = c.shared.registry.methods.length ∧
    (∀ method handler, ((∃ failure, c.register method handler = .error failure) ↔
        Text.isBlank method = true) ∧
      (∀ c', c.register method handler = .ok c' →
        c' = c.update fun s => { s with registry := c'.shared.registry })) ∧
    c.DispatchesBy done := by
  refine ⟨history.keeps.ascending, fun _ => history.keeps.mem_iff, (List.length_map ..).symm, ?_,
    dispatchesBy_of_keeps history.keeps history.reachable.named⟩
  intro method handler
  refine ⟨by simp [register_eq_error_iff], fun c' h => ?_⟩
  obtain ⟨registry, -, rfl⟩ := register_eq_ok_iff.1 h
  rfl

theorem History.follow (history : History config done c)
    (hms : ∀ m ∈ ms, m.registers = false)
    (h : c.follow ms = some c') : History config done c' :=
  follow_induct_of_forall (P := fun c => History config done c) hms h history
    fun _ _ _ hm happly history => .moved history hm happly

/-- A request for the same method with a blank before it. -/
def untrimmedRequest : String :=
  "\x7b\"jsonrpc\":\"2.0\",\"id\":\"s1\",\"method\":\" m\"\x7d"

/-- A method is registered twice, a link is opened, lost and opened again, and a blank method is
refused. -/
theorem registrations_decide_dispatch_reopened : ∃ c,
    History .standard [("m", .constant .null), ("m", .echo)] c ∧ c.shared.link.generation = 3 ∧
    "m" ∈ c.shared.registry.methods ∧
    (∃ c' n, c.step 4 (.frame (.text failingRequest)) = some c' ∧ c'.tasks[4]? = some
      (.receive 3 (.handling (some (.string "s1")) ((Handler.constant .null).respond n .empty)))) ∧
    ∃ c', c.step 4 (.frame (.text untrimmedRequest)) = some c' ∧ c'.tasks[4]? =
      some (.receive 3 (.replying ⟨"2.0", .string "s1", none,
        some ⟨-32601, "method \" m\" not found", none⟩⟩ .request)) := by
  have hrun : ((fresh .standard).follow
      (.register "m" .echo :: .register "m" (.constant .null) :: reinstalling)).any (fun c =>
      (c.tasks[4]?).bind Task.reading? = some 3 ∧ c.shared.link.generation = 3) = true := by
    decide +kernel
  obtain ⟨c, hc, hfacts⟩ := Option.any_eq_true _ _ |>.1 hrun
  obtain ⟨hreading, hgeneration⟩ := of_decide_eq_true hfacts
  obtain ⟨c₁, h₁, hc⟩ := follow_cons.1 hc
  obtain ⟨c₂, h₂, hc⟩ := follow_cons.1 hc
  have hblank : c.register " " .echo = .error (.invalidArgument "method is required") :=
    register_eq_error_iff.2 ⟨by decide, rfl⟩
  have history : History .standard [("m", .constant .null), ("m", .echo)] c :=
    .refused (.follow (.registered (.registered .fresh (register_of_apply h₁))
      (register_of_apply h₂)) (by decide) hc) hblank
  have hparse : Envelope.parse failingRequest =
      some (.request ⟨"2.0", some (.string "s1"), "m", .empty⟩) := by
    decide +kernel
  have huntrimmed : Envelope.parse untrimmedRequest =
      some (.request ⟨"2.0", some (.string "s1"), " m", .empty⟩) := by
    decide +kernel
  have ht := idle_of_reading? hreading
  obtain ⟨-, hmethods, -, -, hdispatch⟩ := registrations_decide_dispatch history
  obtain ⟨c', p, hstep, ht', -, hhandled, -⟩ := hdispatch 4 3 _ "1" _ ht hparse rfl rfl
  obtain ⟨c'', p', hstep', ht'', -, -, -, hunknown⟩ := hdispatch 4 3 _ "1" _ ht huntrimmed rfl rfl
  obtain ⟨⟨n, rfl⟩, -⟩ := hhandled (by decide) _ rfl
  obtain rfl := hunknown.2 ⟨by decide, by decide, by simp⟩
  exact ⟨c, history, hgeneration, (hmethods "m").2 ⟨_, List.mem_cons_self⟩,
    ⟨c', n, hstep, ht'⟩, c'', hstep', ht''⟩

end Client
end DuplexRpc
