import DuplexRpc.Proofs.Client.Serving
import DuplexRpc.Proofs.Envelope.Verdicts

/-!
What a receiver sends and which handlers it runs. Every text has its own handler calls and its own
replies, at most one of each, and they come in the order of the texts.
-/
namespace DuplexRpc

/-- What a text leads to: one reply if it is a request with an id, and one handler call, on an
object, if it admits one. -/
structure Served (has : String → Bool) (text : String) (calls : List HandlerCall)
    (replies : List Response) : Prop where
  answered : ∀ r id, Envelope.parse text = some (.request r) → r.id = some id →
    ∃ response, replies = [response] ∧ response.Answers id
  silent : (∀ r id, Envelope.parse text = some (.request r) → r.id ≠ some id) → replies = []
  once : calls.length ≤ 1
  admitted : calls ≠ [] ↔ Envelope.Admits has text
  called : ∀ call ∈ calls, ∃ r, Envelope.parse text = some (.request r) ∧
    call.method = r.method ∧ ∃ members, call.params = .object members

/-- A text, the handler calls it led to and the replies. -/
structure LogEntry where
  text : String
  calls : List HandlerCall
  replies : List Response

/-- What is sent to a generation for a reply. -/
def Response.sentBy (g : Generation) (t : TaskId) (response : Response) : Sent :=
  ⟨g, t, .text response.wire⟩

theorem Json.exists_asObject (j : Json) : ∃ members, j.asObject = .object members := by
  cases j <;> exact ⟨_, rfl⟩

namespace Registry

/-- A call counts, and registers nothing. -/
theorem has_call {r r' : Registry} {method : String} {params : Json} {call : HandlerCall}
    {result : HandlerResult} (h : r.call method params = some (call, result, r')) :
    r'.has = r.has := by
  obtain ⟨service, hservice, heq⟩ := Option.map_eq_some_iff.1 h
  cases heq
  funext m
  unfold has get?
  rw [lookup_place]
  split
  next hm =>
    subst hm
    exact (congrArg Option.isSome hservice).symm
  next => rfl

end Registry

theorem Served.of_no_request {registry : Registry} {text : String}
    (h : ∀ r, Envelope.parse text ≠ some (.request r)) : Served registry.has text [] [] := by
  refine ⟨fun r id hr => absurd hr (h r), fun _ => rfl, Nat.zero_le _, ?_, nofun⟩
  rw [Envelope.admits_iff]
  simp [h]

/-- A request that no handler is run for. -/
theorem Served.of_request {registry : Registry} {text : String} {r : Request}
    {replies : List Response} (hparse : Envelope.parse text = some (.request r))
    (hverdict : r.verdict registry ≠ .handle)
    (hsilent : r.id = none → replies = [])
    (hanswered : ∀ id, r.id = some id → ∃ response, replies = [response] ∧ response.Answers id) :
    Served registry.has text [] replies := by
  refine ⟨fun r' id hr' hid => ?_, fun hno => ?_, Nat.zero_le _, ?_, nofun⟩
  · rw [hparse] at hr'
    cases hr'
    exact hanswered id hid
  · cases hid : r.id with
    | none => exact hsilent hid
    | some id => exact absurd hid (hno r id hparse)
  · rw [Envelope.admits_iff, hparse]
    simp [hverdict]

/-- A request that a handler is run for. -/
theorem Served.of_handled {registry : Registry} {text : String} {r : Request}
    {call : HandlerCall} (hparse : Envelope.parse text = some (.request r))
    (hverdict : r.verdict registry = .handle) (hmethod : call.method = r.method)
    (hparams : call.params = r.params) (result : HandlerResult) :
    Served registry.has text [call] (r.id.toList.map result.reply) := by
  refine ⟨fun r' id hr' hid => ?_, fun hno => ?_, Nat.le_refl _, ?_, fun call' hmem => ?_⟩
  · rw [hparse] at hr'
    cases hr'
    exact ⟨result.reply id, by rw [hid]; rfl, result.reply_answers id⟩
  · cases hid : r.id with
    | none => rfl
    | some id => exact absurd hid (hno r id hparse)
  · rw [Envelope.admits_iff, hparse]
    simp [hverdict]
  · rw [List.mem_singleton.1 hmem]
    obtain ⟨m, method, -, -, heq⟩ := Envelope.parse_eq_request_iff.1 hparse
    obtain ⟨members, hmembers⟩ := Json.exists_asObject ((m.get? "params").getD .null)
    refine ⟨r, hparse, hmethod, members, ?_⟩
    rw [hparams, heq]
    exact hmembers

namespace Client

variable {c c' : Client} {t : TaskId} {g : Generation} {choice : Choice} {p p' : ReceivePhase}

/-- What taking a text leads to. -/
theorem receiveText_served (c : Client) (text : String) :
    ∃ calls, (c.receiveText text).1.shared.calls = c.shared.calls ++ calls ∧
      Served c.shared.registry.has text calls (c.receiveText text).2.owed := by
  fun_cases receiveText c text
  case case1 hparse =>
    exact ⟨[], (List.append_nil _).symm, .of_no_request (by simp [hparse])⟩
  case case2 response hparse =>
    exact ⟨[], (List.append_nil _).symm, .of_no_request (by simp [hparse])⟩
  case case3 r hparse hverdict =>
    have hnone := (r.id_of_verdict _).1 hverdict
    exact ⟨[], (List.append_nil _).symm, .of_request hparse (by simp [hverdict]) (fun _ => rfl)
      fun id hid => by simp [hnone] at hid⟩
  case case4 r hparse response hverdict =>
    obtain ⟨id, hid, hanswers⟩ := (r.id_of_verdict _).2 response hverdict
    refine ⟨[], (List.append_nil _).symm, .of_request hparse (by simp [hverdict]) ?_ ?_⟩
    · simp [hid]
    · intro id' hid'
      rw [hid, Option.some.injEq] at hid'
      exact ⟨response, rfl, hid' ▸ hanswers⟩
  case case5 r hparse hverdict call result registry hcall =>
    have hcalled : call.method = r.method ∧ call.params = r.params := by
      obtain ⟨service, -, heq⟩ := Option.map_eq_some_iff.1 hcall
      cases heq
      exact ⟨rfl, rfl⟩
    exact ⟨[call], rfl, .of_handled hparse hverdict hcalled.1 hcalled.2 result⟩
  case case6 r hparse hverdict hcall =>
    have hhas := ((r.verdict_eq_handle_iff _).1 hverdict).2.2.2.2
    rw [Registry.call, Option.map_eq_none_iff] at hcall
    simp [Registry.has, hcall] at hhas

/-- The books of a receiver that has taken some texts: what it has run and sent, and what it still
owes, are the entries of a log of these texts. -/
structure Balanced (g : Generation) (t : TaskId) (s : Shared) (texts : List String) (s' : Shared)
    (p : ReceivePhase) : Prop where
  handlers : s'.registry.has = s.registry.has
  sink : s'.outbound.sink = some g
  target : ∀ response g', p = .replying response (.writing g') → g' = g
  log : ∃ log : List LogEntry, log.map (·.text) = texts ∧
    (∀ e ∈ log, Served s.registry.has e.text e.calls e.replies) ∧
    s'.calls = s.calls ++ log.flatMap (·.calls) ∧
    s'.sent ++ p.owed.map (·.sentBy g t) =
      s.sent ++ (log.flatMap (·.replies)).map (·.sentBy g t)

theorem Balanced.start (hsink : c.shared.outbound.sink = some g) :
    Balanced g t c.shared [] c.shared .idle := by
  refine ⟨rfl, hsink, fun response g' heq => ?_, [], rfl, fun e he => ?_, by simp, ?_⟩
  · cases heq
  · cases he
  · simp [ReceivePhase.owed]

theorem receiveText_frame (c : Client) (text : String) :
    (c.receiveText text).1.shared.registry.has = c.shared.registry.has ∧
      (c.receiveText text).1.shared.sent = c.shared.sent ∧
      ∀ response g', (c.receiveText text).2 ≠ .replying response (.writing g') := by
  fun_cases receiveText c text
  case case5 r hparse hverdict call result registry hcall =>
    exact ⟨Registry.has_call hcall, rfl, by simp⟩
  all_goals exact ⟨rfl, rfl, by simp⟩

/-- A text opens a new entry in the log. -/
theorem Balanced.receiveText {s : Shared} {texts : List String}
    (h : Balanced g t s texts c.shared .idle) (text : String) :
    Balanced g t s (texts ++ [text]) (c.receiveText text).1.shared (c.receiveText text).2 := by
  obtain ⟨hhas, hsent, htarget⟩ := receiveText_frame c text
  obtain ⟨calls, hcalls, hserved⟩ := receiveText_served c text
  obtain ⟨log, htexts, hall, hlogged, hreplied⟩ := h.log
  refine ⟨hhas.trans h.handlers, ?_, fun response g' heq => absurd heq (htarget response g'), ?_⟩
  · rw [outbound_receiveText, h.sink]
  · refine ⟨log ++ [⟨text, calls, (c.receiveText text).2.owed⟩], by simp [htexts], ?_, ?_, ?_⟩
    · intro e he
      rcases List.mem_append.1 he with he | he
      · exact hall e he
      · rw [List.mem_singleton.1 he, ← h.handlers]
        exact hserved
    · rw [hcalls, hlogged]
      simp
    · simp only [ReceivePhase.owed, List.map_nil, List.append_nil] at hreplied
      rw [hsent, hreplied]
      simp

/-- No step of a serving receiver upsets its books, unless a write fails. -/
theorem receiveStep_balanced {s : Shared} {texts : List String}
    (hchoice : ∀ report, choice ≠ .written (some report))
    (h : c.receiveStep t g choice p = some (c', p'))
    (hp : p.serves = true → Balanced g t s texts c.shared p) (hp' : p'.serves = true) :
    Balanced g t s (texts ++ choice.texts) c'.shared p' := by
  rcases receiveStep_serves h hp' with ⟨text, rfl, rfl, hc⟩ | ⟨htexts, rfl, rfl, rfl⟩ |
    ⟨id, result, rfl, rfl, rfl, rfl⟩ | ⟨response, q, next, rfl, rfl, hsend⟩
  · obtain ⟨rfl, rfl⟩ := Prod.mk.inj hc
    exact (hp rfl).receiveText text
  · rw [htexts, List.append_nil]
    exact hp rfl
  · have hsettled : Choice.settled.texts = [] := rfl
    rw [hsettled, List.append_nil]
    obtain ⟨hhas, hsink, -, hlog⟩ := hp rfl
    refine ⟨hhas, hsink, fun response g' heq => ?_, ?_⟩
    · cases id <;> cases heq
    · cases id <;> exact hlog
  · obtain ⟨hhas, hsink, htarget, log, htexts, hall, hlogged, hreplied⟩ := hp rfl
    obtain ⟨-, hregistry, hcalls, hsink', hchoice'⟩ := sendStep_frame hsend
    rw [hchoice', List.append_nil]
    rcases sendStep_sent hsend with ⟨q', rfl, hsent, hwriting⟩ | ⟨g', rfl, rfl, hsent⟩ |
      ⟨failure, rfl, hfail⟩
    · refine ⟨hregistry ▸ hhas, hsink'.trans hsink, fun response' g' heq => ?_, log, htexts, hall,
        hcalls.trans hlogged, hsent ▸ hreplied⟩
      cases heq
      have hg := (hwriting g' rfl).symm.trans hsink
      exact Option.some.inj hg
    · have hg := htarget response g' rfl
      refine ⟨hregistry ▸ hhas, hsink'.trans hsink, nofun, log, htexts, hall,
        hcalls.trans hlogged, ?_⟩
      rw [← hreplied, hsent, hg]
      simp [replyingNext, ReceivePhase.owed, Response.sentBy]
    · rcases hfail with hnone | ⟨report, hreport⟩
      · rw [hsink] at hnone
        cases hnone
      · exact absurd hreport (hchoice report)

/-- A receiver takes texts over an open link, and no write fails. In the order of the texts, it runs
the handlers and sends the replies of a log with one entry a text: one reply for a request with an
id, which carries the id unchanged, the version and a result object or an error, and none for any
other text; and one handler call, on an object, for a text that admits it, and none for any other.
Whatever the texts are, they can all be handled while nobody else writes. -/
theorem receiver_answers_each_request_once (ht : c.tasks[t]? = some (.receive g .idle))
    (hsink : c.shared.outbound.sink = some g) :
    (∀ choices c', c.steps t choices = some c' → c'.tasks[t]? = some (.receive g .idle) →
      (∀ report, .written (some report) ∉ choices) →
      ∃ log : List LogEntry, log.map (·.text) = choices.flatMap Choice.texts ∧
        (∀ e ∈ log, Served c.shared.registry.has e.text e.calls e.replies) ∧
        c'.shared.calls = c.shared.calls ++ log.flatMap (·.calls) ∧
        c'.shared.sent = c.shared.sent ++ (log.flatMap (·.replies)).map (·.sentBy g t)) ∧
    (c.shared.outbound.holder = none → c.shared.outbound.queue = [] →
      ∀ texts, ∃ choices c', c.steps t choices = some c' ∧
        choices.flatMap Choice.texts = texts ∧ c'.tasks[t]? = some (.receive g .idle) ∧
        ∀ report, .written (some report) ∉ choices) := by
  refine ⟨fun choices c' h ht' hwritten => ?_, fun hfree hqueue texts => ?_⟩
  · obtain ⟨p', ht'', hbalanced⟩ := steps_receive_induct
      (Q := fun choice => ∀ report, choice ≠ .written (some report))
      (P := fun texts s p => p.serves = true → Balanced g t c.shared texts s p)
      (fun _ _ _ _ _ _ hchoice hstep hp hp' => receiveStep_balanced hchoice hstep hp hp')
      (fun choice hmem report heq => hwritten report (heq ▸ hmem)) h [] ht
      (fun _ => .start hsink)
    rw [ht', Option.some.injEq, Task.receive.injEq] at ht''
    obtain ⟨-, rfl⟩ := ht''
    obtain ⟨log, htexts, hall, hcalls, hsent⟩ := (hbalanced rfl).log
    exact ⟨log, htexts, hall, hcalls, by simpa [ReceivePhase.owed] using hsent⟩
  · obtain ⟨choices, c', h, htexts, hwritten, ht'⟩ := exists_steps_of_texts ht hfree hqueue texts
    exact ⟨choices, c', h, htexts, ht', hwritten⟩

/-- A client with the first link open and one handler, for the method `echo`. -/
def withEcho : Client where
  shared :=
    let s := Shared.fresh .standard
    { s with
      registry := (Registry.empty.register "echo" .echo).toOption.getD .empty
      outbound := { s.outbound with sink := some 1 } }
  tasks := [.receive 1 .idle]

/-- One request that the handler answers. -/
def echoing : List Choice :=
  [.frame (.text "\x7b\"jsonrpc\":\"2.0\",\"id\":\"s1\",\"method\":\"echo\"\x7d"), .settled, .run,
    .run, .written none]

theorem receiver_answers_each_request_once_echoing : ∃ c' log, withEcho.steps 0 echoing = some c' ∧
    c'.tasks[0]? = some (.receive 1 .idle) ∧
    List.map LogEntry.text log = echoing.flatMap Choice.texts ∧
    (∀ e ∈ log, Served withEcho.shared.registry.has e.text e.calls e.replies) ∧
    c'.shared.calls = withEcho.shared.calls ++ log.flatMap (·.calls) ∧
    c'.shared.sent = withEcho.shared.sent ++ (log.flatMap (·.replies)).map (·.sentBy 1 0) := by
  have hrun : (withEcho.steps 0 echoing).any (fun c' =>
      (c'.tasks[0]?).bind Task.reading? = some 1) = true := by
    decide +kernel
  obtain ⟨c', hsteps, hreading⟩ := Option.any_eq_true _ _ |>.1 hrun
  have ht' := idle_of_reading? (of_decide_eq_true hreading)
  have hwritten : ∀ report, Choice.written (some report) ∉ echoing := by simp [echoing]
  obtain ⟨log, hlog⟩ :=
    (receiver_answers_each_request_once (c := withEcho) rfl rfl).1 echoing c' hsteps ht' hwritten
  exact ⟨c', log, hsteps, ht', hlog⟩

end Client
end DuplexRpc
