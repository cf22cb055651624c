import DuplexRpc.Proofs.Client.Frames
import DuplexRpc.Proofs.Client.Histories

/-!
Junk among the frames. A frame that is no envelope, answers no waiting call or asks for nothing
leaves a client exactly as it is, so what a receiver does about a sequence of frames does not depend
on the junk in it, wherever that stands.
-/
namespace DuplexRpc

/-- An envelope that nothing is done about: a response to no waiting call, or a request that wants
no reply and has no handler. A null id counts as none. -/
def Envelope.isJunk (has : String → Bool) (pending : PendingTable) : Envelope → Bool
  | response r => (idKey r.id).all fun key => !pending.contains key
  | request r => r.id.isNone &&
    (r.version != "2.0" || Text.isBlank r.method || r.method == "rpc.heartbeat" || !has r.method)

namespace Frame

variable {has : String → Bool} {pending : PendingTable} {f : Frame}

/-- A frame that nothing is done about when it arrives. -/
def isJunk (has : String → Bool) (pending : PendingTable) : Frame → Bool
  | text s => (Envelope.parse s).all (·.isJunk has pending)
  | binary => true
  | _ => false

theorem endsLink_of_isJunk (h : f.isJunk has pending = true) : f.endsLink = false := by
  cases f <;> first | rfl | cases h

/-- Two sequences of frames that differ only by junk. It may stand anywhere in either, and counts as
junk for the calls that wait when it arrives. -/
inductive DifferByJunk (has : String → Bool) : PendingTable → List Frame → List Frame → Prop where
  | nil (pending : PendingTable) : DifferByJunk has pending [] []
  | both {pending : PendingTable} {frames frames' : List Frame} (f : Frame)
    (rest : DifferByJunk has (f.settle pending) frames frames') :
    DifferByJunk has pending (f :: frames) (f :: frames')
  | left {pending : PendingTable} {frames frames' : List Frame} (f : Frame)
    (h : f.isJunk has pending = true) (rest : DifferByJunk has pending frames frames') :
    DifferByJunk has pending (f :: frames) frames'
  | right {pending : PendingTable} {frames frames' : List Frame} (f : Frame)
    (h : f.isJunk has pending = true) (rest : DifferByJunk has pending frames frames') :
    DifferByJunk has pending frames (f :: frames')

theorem DifferByJunk.refl (has : String → Bool) (pending : PendingTable) (frames : List Frame) :
    DifferByJunk has pending frames frames := by
  induction frames generalizing pending with
  | nil => exact .nil pending
  | cons f frames ih => exact .both f (ih _)

end Frame

namespace Client

variable {c c' : Client} {t : TaskId} {g : Generation} {f : Frame} {frames frames' : List Frame}
  {reports : List (Option String)}

theorem settle_of_isJunk {r : Response} {has : String → Bool} {pending : PendingTable}
    (h : (Envelope.response r).isJunk has pending = true) : r.settle pending = pending := by
  unfold Response.settle
  split
  next key hkey =>
    have hnone : pending.find? key = none := by
      simpa [Envelope.isJunk, hkey, PendingTable.contains_eq_isSome] using h
    simp only [PendingTable.resolve, PendingTable.close, hnone]
  next => rfl

theorem verdict_of_isJunk {r : DuplexRpc.Request} {registry : Registry} {pending : PendingTable}
    (h : (Envelope.request r).isJunk registry.has pending = true) :
    r.verdict registry = .ignore := by
  simp only [Envelope.isJunk, Bool.and_eq_true, Option.isNone_iff_eq_none, Bool.or_eq_true,
    bne_iff_ne, beq_iff_eq, Bool.not_eq_true'] at h
  obtain ⟨hid, h⟩ := h
  unfold Request.verdict
  simp only [Request.refuse, Request.hasServerId, hid]
  split
  next => rfl
  next hvalid =>
    rw [not_or] at hvalid
    split
    next => rfl
    next hheart =>
      obtain ((hversion | hblank) | hmethod) | hhas := h
      · exact absurd hversion hvalid.1
      · exact absurd hblank hvalid.2
      · exact absurd hmethod hheart
      · simp [hhas]

theorem receiveText_of_isJunk {text : String}
    (h : (Frame.text text).isJunk c.shared.registry.has c.shared.pending = true) :
    c.receiveText text = (c, .idle) := by
  unfold receiveText
  cases hparse : Envelope.parse text with
  | none => rfl
  | some e =>
    have hjunk : e.isJunk c.shared.registry.has c.shared.pending = true := by
      simpa [Frame.isJunk, hparse] using h
    cases e with
    | request r => simp only [verdict_of_isJunk hjunk]
    | response r => simp only [settle_of_isJunk hjunk, update]

/-- A receiver that takes junk is where it was, and so is everything else. -/
theorem receiveStep_of_isJunk (h : f.isJunk c.shared.registry.has c.shared.pending = true) :
    c.receiveStep t g (.frame f) .idle = some (c, .idle) := by
  cases f with
  | text s => exact congrArg some (receiveText_of_isJunk h)
  | binary => rfl
  | _ => cases h

/-- What can be done about a sequence of frames can be done about any other that differs from it
only by junk. -/
theorem Handles.of_differByJunk (ht : c.tasks[t]? = some (.receive g .idle))
    (hdiffer : Frame.DifferByJunk c.shared.registry.has c.shared.pending frames frames')
    (h : c.Handles t frames reports c') : c.Handles t frames' reports c' := by
  generalize hhas : c.shared.registry.has = has at hdiffer
  generalize hpending : c.shared.pending = pending at hdiffer
  induction hdiffer generalizing c reports with
  | nil pending => exact h
  | left f hjunk rest ih =>
    have hstill := receiveStep_of_isJunk (t := t) (g := g) (hhas ▸ hpending ▸ hjunk)
    obtain ⟨⟨choices, hsteps, hframes, rfl, hcancelled⟩, hrests⟩ := h
    rw [Frame.taken_cons (Frame.endsLink_of_isJunk hjunk)] at hframes
    obtain ⟨rest, c₁, rfl, h₁, hrest, hframes⟩ :=
      exists_step_of_frames ht hsteps hcancelled hframes
    cases (step_of_still ht hstill).symm.trans h₁
    exact ih ht ⟨⟨rest, hrest, hframes, rfl, fun h => hcancelled (.tail _ h)⟩, hrests⟩ hhas hpending
  | right f hjunk rest ih =>
    have hstill := receiveStep_of_isJunk (t := t) (g := g) (hhas ▸ hpending ▸ hjunk)
    exact (ih ht h hhas hpending).of_still ht (Frame.endsLink_of_isJunk hjunk) hstill
  | both f rest ih =>
    cases hends : f.endsLink with
    | true =>
      have htaken (frames : List Frame) : Frame.taken (f :: frames) = [f] := by
        rw [Frame.taken, if_pos hends]
      obtain ⟨⟨choices, hsteps, hframes, hrest⟩, hrests⟩ := h
      exact ⟨⟨choices, hsteps, hframes.trans ((htaken _).trans (htaken _).symm), hrest⟩, hrests⟩
    | false =>
      obtain ⟨choices, c₁, reports', hsteps, hcancelled, hframes, ht₁, hpending₁, hhas₁, hrest,
        rfl⟩ := h.uncons ht hends
      refine .of_steps hsteps hcancelled (ih ht₁ hrest (hhas₁.trans hhas) (hpending ▸ hpending₁)) ?_
      rw [hframes, Frame.taken_cons hends]
      rfl

/-- Two sequences of moves that differ only by junk. Any receiver may take it where it is idle. -/
inductive DifferByJunk : Client → List Move → List Move → Prop where
  | nil (c : Client) : DifferByJunk c [] []
  | both {c : Client} {ms ms' : List Move} (m : Move)
    (rest : ∀ c', c.apply m = some c' → DifferByJunk c' ms ms') :
    DifferByJunk c (m :: ms) (m :: ms')
  | left {c : Client} {ms ms' : List Move} {t : TaskId} {g : Generation} {f : Frame}
    (ht : c.tasks[t]? = some (.receive g .idle))
    (h : f.isJunk c.shared.registry.has c.shared.pending = true) (rest : DifferByJunk c ms ms') :
    DifferByJunk c (.step t (.frame f) :: ms) ms'
  | right {c : Client} {ms ms' : List Move} {t : TaskId} {g : Generation} {f : Frame}
    (ht : c.tasks[t]? = some (.receive g .idle))
    (h : f.isJunk c.shared.registry.has c.shared.pending = true) (rest : DifferByJunk c ms ms') :
    DifferByJunk c ms (.step t (.frame f) :: ms')

theorem follow_of_isJunk {ms : List Move} (ht : c.tasks[t]? = some (.receive g .idle))
    (h : f.isJunk c.shared.registry.has c.shared.pending = true) :
    c.follow (.step t (.frame f) :: ms) = c.follow ms := by
  have hstill : c.apply (.step t (.frame f)) = some c :=
    step_of_still ht (receiveStep_of_isJunk h)
  rw [follow, List.foldlM_cons, hstill]
  rfl

theorem follow_of_differByJunk {ms ms' : List Move} (h : c.DifferByJunk ms ms') :
    c.follow ms = c.follow ms' := by
  induction h with
  | nil c => rfl
  | both m rest ih =>
    rw [follow, follow, List.foldlM_cons, List.foldlM_cons]
    exact Option.bind_congr fun c' h => ih c' h
  | left ht h rest ih => exact (follow_of_isJunk ht h).trans ih
  | right ht h rest ih => exact ih.trans (follow_of_isJunk ht h).symm

/-- A receiver takes two sequences of frames that differ only by junk, and its writes end alike.
Then the client is the same after both: the replies that were sent, the handler calls with their
params, the outcomes of all calls, the table of those that wait and all else. What can be done about
one sequence can be done about the other; any sequence can be dealt with while nobody else writes.
And whatever the other tasks do meanwhile, the junk that the receivers take changes nothing. -/
theorem junk_leaves_no_trace (ht : c.tasks[t]? = some (.receive g .idle)) :
    (∀ frames frames' reports,
      Frame.DifferByJunk c.shared.registry.has c.shared.pending frames frames' →
      (∀ c₁ c₂, c.Handles t frames reports c₁ → c.Handles t frames' reports c₂ → c₁ = c₂) ∧
      ∀ c', c.Handles t frames reports c' → c.Handles t frames' reports c') ∧
    (c.shared.outbound.holder = none → c.shared.outbound.queue = [] →
      ∀ frames, ∃ reports c', c.Handles t frames reports c' ∧ ∀ report ∈ reports, report = none) ∧
    ∀ ms ms', c.DifferByJunk ms ms' → c.follow ms = c.follow ms' := by
  refine ⟨fun frames frames' reports hdiffer => ⟨fun c₁ c₂ h₁ h₂ => ?_, fun c' h => ?_⟩,
    fun hfree hqueue => exists_handles ht hfree hqueue, fun ms ms' => follow_of_differByJunk⟩
  · exact (h₁.of_differByJunk ht hdiffer).unique ht h₂
  · exact h.of_differByJunk ht hdiffer

/-- A client that can answer the peer and waits for an answer itself. -/
def withEchoAndCall : Client :=
  withEcho.update fun s => { s with pending := .run .empty [.register "c1"] }

/-- The answer to the waiting call, which is junk when it comes once more. -/
def answerFrame : Frame := .text "\x7b\"id\":\"c1\",\"result\":\x7b\x7d\x7d"

def echoFrame : Frame :=
  .text "\x7b\"jsonrpc\":\"2.0\",\"id\":\"s1\",\"method\":\"echo\"\x7d"

/-- A heartbeat that wants no reply. -/
def silentFrame : Frame :=
  .text "\x7b\"jsonrpc\":\"2.0\",\"id\":null,\"method\":\"rpc.heartbeat\"\x7d"

/-- Junk before, between and behind an answer and a request, and another junk frame between them. -/
theorem junk_leaves_no_trace_answering_and_echoing : ∃ c₁,
    withEchoAndCall.Handles 0 [.binary, answerFrame, answerFrame, silentFrame, echoFrame] [none]
      c₁ ∧
    withEchoAndCall.Handles 0 [answerFrame, .text "[", echoFrame] [none] c₁ ∧
    c₁.shared.sent.length = 1 ∧ c₁.shared.calls.length = 1 ∧ c₁.shared.pending.size = 0 := by
  let choices : List Choice := [.frame .binary, .frame answerFrame, .frame answerFrame,
    .frame silentFrame, .frame echoFrame, .settled, .run, .run, .written none]
  have hrun : (withEchoAndCall.steps 0 choices).any (fun c₁ =>
      (c₁.tasks[0]?).bind Task.reading? = some 1 ∧ c₁.shared.sent.length = 1 ∧
        c₁.shared.calls.length = 1 ∧ c₁.shared.pending.size = 0) = true := by
    decide +kernel
  obtain ⟨c₁, hsteps, hend⟩ := Option.any_eq_true _ _ |>.1 hrun
  obtain ⟨hreading, hdone⟩ := of_decide_eq_true hend
  have hhandles : withEchoAndCall.Handles 0
      [.binary, answerFrame, answerFrame, silentFrame, echoFrame] [none] c₁ :=
    ⟨⟨choices, hsteps, rfl, rfl, by simp [choices]⟩, 1, .idle, idle_of_reading? hreading, rfl⟩
  have hdiffer : Frame.DifferByJunk withEchoAndCall.shared.registry.has
      withEchoAndCall.shared.pending
      [.binary, answerFrame, answerFrame, silentFrame, echoFrame]
      [answerFrame, .text "[", echoFrame] :=
    .left _ rfl (.both _ (.left _ (by decide +kernel) (.left _ (by decide +kernel)
      (.right _ (by decide +kernel) (.refl _ _ _)))))
  exact ⟨c₁, hhandles, ((junk_leaves_no_trace rfl).1 _ _ _ hdiffer).2 c₁ hhandles, hdone⟩

end Client
end DuplexRpc
