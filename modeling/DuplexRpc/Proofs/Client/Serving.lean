import DuplexRpc.Client.Waiting
import DuplexRpc.Proofs.Client.Runs
import DuplexRpc.Proofs.Pending.Answers

/-!
A receiver at work. While it serves its link it takes one frame after the other; what a text starts
is done in one step, and only the reply, if there is one, takes more. Once it has left its link it
never serves again.
-/
namespace DuplexRpc

/-- The texts that arrive with a choice. -/
def Choice.texts : Choice → List String
  | frame (.text s) => [s]
  | _ => []

/-- What only an idle receiver takes. -/
def Choice.isArrival : Choice → Bool
  | frame _ | cancelled => true
  | _ => false

theorem Choice.texts_of_isArrival {choices : List Choice}
    (h : ∀ choice ∈ choices, choice.isArrival = false) : choices.flatMap texts = [] := by
  refine List.flatMap_eq_nil_iff.2 fun choice hmem => ?_
  cases choice with
  | frame f => cases h _ hmem
  | _ => rfl

namespace ReceivePhase

/-- The receiver has not left its link. -/
def serves : ReceivePhase → Bool
  | idle | handling _ _ | replying _ _ => true
  | _ => false

/-- The replies that are still to be sent. -/
def owed : ReceivePhase → List Response
  | handling id result => id.toList.map result.reply
  | replying response _ => [response]
  | _ => []

end ReceivePhase

namespace Client

variable {c c' : Client} {t : TaskId} {g : Generation} {choice : Choice} {p p' : ReceivePhase}

theorem receiveStep_of_step (ht : c.tasks[t]? = some (.receive g p))
    (h : c.step t choice = some c') :
    ∃ c₁ p', c.receiveStep t g choice p = some (c₁, p') ∧ c'.shared = c₁.shared ∧
      c'.tasks[t]? = some (.receive g p') := by
  obtain ⟨task, c₁, task', htask, hstep, rfl⟩ := step_eq_some_iff.1 h
  rw [ht, Option.some.injEq] at htask
  subst htask
  have hlt : t < c₁.tasks.length := Nat.lt_of_lt_of_le (List.getElem?_eq_some_iff.1 ht).1
    (taskStep_evolves hstep).length
  obtain ⟨⟨c₁', p'⟩, hreceive, heq⟩ := Option.map_eq_some_iff.1 hstep
  cases heq
  exact ⟨c₁, p', hreceive, rfl, List.getElem?_set_self hlt⟩

/-- What the own steps of a receiver keep, together with the texts that it has taken. -/
theorem steps_receive_induct {Q : Choice → Prop} {P : List String → Shared → ReceivePhase → Prop}
    (hstep : ∀ (texts : List String) (c : Client) (choice : Choice) (p : ReceivePhase) (c' : Client)
      (p' : ReceivePhase), Q choice → c.receiveStep t g choice p = some (c', p') →
        P texts c.shared p → P (texts ++ choice.texts) c'.shared p')
    {choices : List Choice} (hchoices : ∀ choice ∈ choices, Q choice)
    (h : c.steps t choices = some c') (texts : List String)
    (ht : c.tasks[t]? = some (.receive g p)) (hp : P texts c.shared p) :
    ∃ p', c'.tasks[t]? = some (.receive g p') ∧
      P (texts ++ choices.flatMap Choice.texts) c'.shared p' := by
  induction choices generalizing c p texts with
  | nil =>
    cases h
    exact ⟨p, ht, by simpa using hp⟩
  | cons choice choices ih =>
    obtain ⟨c₁, h₁, h⟩ := Option.bind_eq_some_iff.1 h
    obtain ⟨c₂, p₁, hreceive, hshared, ht₁⟩ := receiveStep_of_step ht h₁
    obtain ⟨hchoice, hrest⟩ := List.forall_mem_cons.1 hchoices
    have hp₁ := hstep texts c choice p c₂ p₁ hchoice hreceive hp
    obtain ⟨p', ht', hp'⟩ := ih hrest h _ ht₁ (hshared ▸ hp₁)
    exact ⟨p', ht', by simpa using hp'⟩

/-- The phase after a step of the sending. -/
def replyingNext (response : Response) : Next SendPhase (Except Failure Unit) → ReceivePhase
  | .phase q => .replying response q
  | .over _ => .idle

/-- A step of a receiver that goes on serving takes a text, passes over another frame, ends the wait
for a handler, or is a step of the sending of a reply. -/
theorem receiveStep_serves (h : c.receiveStep t g choice p = some (c', p'))
    (hp' : p'.serves = true) :
    (∃ text, choice = .frame (.text text) ∧ p = .idle ∧ (c', p') = c.receiveText text) ∨
    (choice.texts = [] ∧ p = .idle ∧ c' = c ∧ p' = .idle) ∨
    (∃ id result, choice = .settled ∧ p = .handling id result ∧ c' = c ∧
      p' = id.elim .idle fun id => .replying (result.reply id) .request) ∨
    ∃ response q next, p = .replying response q ∧ p' = replyingNext response next ∧
      c.sendStep t response.wire choice q = some (c', next) := by
  revert h
  fun_cases receiveStep c t g choice p
  all_goals intro h
  case case1 text => exact .inl ⟨text, rfl, rfl, (Option.some.inj h).symm⟩
  case case2 f hf =>
    obtain ⟨rfl, rfl⟩ := Prod.mk.inj (Option.some.inj h)
    refine .inr (.inl ⟨?_, rfl, rfl, ?_⟩)
    · cases f <;> first | rfl | exact absurd rfl (hf _)
    · split at hp'
      · cases hp'
      next hends => rw [if_neg hends]
  case case3 =>
    cases h
    cases hp'
  case case6 id result =>
    cases h
    exact .inr (.inr (.inl ⟨id, result, rfl, rfl, rfl, rfl⟩))
  case case8 response q =>
    obtain ⟨⟨c₁, next⟩, hsend, heq⟩ := Option.map_eq_some_iff.1 h
    refine .inr (.inr (.inr ⟨response, q, next, rfl, ?_⟩))
    cases next <;> cases heq <;> exact ⟨rfl, hsend⟩
  case case9 q =>
    obtain ⟨⟨c₁, next⟩, -, heq⟩ := Option.map_eq_some_iff.1 h
    cases next <;> cases heq <;> cases hp'
  all_goals cases h

@[simp] theorem sink_request (o : Outbound) (u : TaskId) : (o.request u).sink = o.sink := by
  unfold Outbound.request
  cases o.holder <;> rfl

/-- Sending touches neither the calls nor the handlers. -/
theorem sendStep_frame {text : String} {q : SendPhase} {next : Next SendPhase (Except Failure Unit)}
    (h : c.sendStep t text choice q = some (c', next)) :
    c'.shared.pending = c.shared.pending ∧ c'.shared.registry = c.shared.registry ∧
      c'.shared.calls = c.shared.calls ∧ c'.shared.outbound.sink = c.shared.outbound.sink ∧
      choice.texts = [] := by
  revert h
  fun_cases sendStep c t text choice q
  all_goals
    intro h
    cases h
  case case1 => exact ⟨rfl, rfl, rfl, sink_request _ t, rfl⟩
  all_goals exact ⟨rfl, rfl, rfl, rfl, rfl⟩

/-- A write to the sink is the only step of the sending that sends anything. -/
theorem sendStep_sent {text : String} {q : SendPhase} {next : Next SendPhase (Except Failure Unit)}
    (h : c.sendStep t text choice q = some (c', next)) :
    (∃ q', next = .phase q' ∧ c'.shared.sent = c.shared.sent ∧
      ∀ g', q' = .writing g' → c.shared.outbound.sink = some g') ∨
    (∃ g', q = .writing g' ∧ next = .over (.ok ()) ∧
      c'.shared.sent = c.shared.sent ++ [⟨g', t, .text text⟩]) ∨
    (∃ failure, next = .over (.error failure) ∧
      (c.shared.outbound.sink = none ∨ ∃ report, choice = .written (some report))) := by
  revert h
  fun_cases sendStep c t text choice q
  all_goals
    intro h
    cases h
  case case1 => exact .inl ⟨_, rfl, rfl, by simp⟩
  case case4 g' hsink =>
    refine .inl ⟨_, rfl, rfl, fun g'' heq => ?_⟩
    cases heq
    exact hsink
  case case5 hsink => exact .inr (.inr ⟨_, rfl, .inl hsink⟩)
  case case7 g' => exact .inr (.inl ⟨g', rfl, rfl, rfl⟩)
  case case8 g' report => exact .inr (.inr ⟨_, rfl, .inr ⟨report, rfl⟩⟩)

theorem receiveText_pending (c : Client) (text : String) :
    (c.receiveText text).1.shared.pending = c.shared.pending.settleText text := by
  unfold PendingTable.settleText
  fun_cases receiveText c text <;> simp_all [update]

/-- What the texts that a serving receiver has taken have done to the calls. -/
theorem receiveStep_pending (h : c.receiveStep t g choice p = some (c', p'))
    (hp' : p'.serves = true) :
    p.serves = true ∧
      c'.shared.pending = choice.texts.foldl PendingTable.settleText c.shared.pending := by
  rcases receiveStep_serves h hp' with ⟨text, rfl, rfl, hc⟩ | ⟨hchoice, rfl, rfl, -⟩ |
    ⟨id, result, rfl, rfl, rfl, -⟩ | ⟨response, q, next, rfl, -, hsend⟩
  · exact ⟨rfl, (Prod.mk.inj hc).1 ▸ receiveText_pending c text⟩
  · exact ⟨rfl, by rw [hchoice]; rfl⟩
  · exact ⟨rfl, rfl⟩
  · obtain ⟨hpending, -, -, -, htexts⟩ := sendStep_frame hsend
    exact ⟨rfl, by rw [hpending, htexts]; rfl⟩

theorem steps_pending {choices : List Choice} (h : c.steps t choices = some c')
    (ht : c.tasks[t]? = some (.receive g p)) (ht' : c'.tasks[t]? = some (.receive g p'))
    (hp' : p'.serves = true) :
    c'.shared.pending =
      (choices.flatMap Choice.texts).foldl PendingTable.settleText c.shared.pending := by
  obtain ⟨p'', ht'', hpending⟩ := steps_receive_induct (Q := fun _ => True)
    (P := fun texts s p => p.serves = true →
      s.pending = texts.foldl PendingTable.settleText c.shared.pending)
    (fun texts c₀ choice p c₁ p' _ hstep hp hserves => by
      obtain ⟨hbefore, hpending⟩ := receiveStep_pending hstep hserves
      rw [hpending, hp hbefore, List.foldl_append])
    (fun _ _ => trivial) h [] ht (fun _ => rfl)
  rw [ht', Option.some.injEq, Task.receive.injEq] at ht''
  exact hpending (ht''.2 ▸ hp')

theorem exists_step_of_receiveStep (choice : Choice) (c₁ : Client)
    (ht : c.tasks[t]? = some (.receive g p)) (h : c.receiveStep t g choice p = some (c₁, p')) :
    ∃ c', c.step t choice = some c' ∧ c'.tasks[t]? = some (.receive g p') ∧
      c'.shared = c₁.shared := by
  have hlt := Nat.lt_of_lt_of_le (List.getElem?_eq_some_iff.1 ht).1 (receiveStep_evolves h).length
  refine ⟨⟨c₁.shared, c₁.tasks.set t (.receive g p')⟩, ?_, List.getElem?_set_self hlt, rfl⟩
  exact step_eq_some_iff.2 ⟨_, c₁, _, ht, by rw [taskStep, h]; rfl, rfl⟩

theorem exists_step_of_text (ht : c.tasks[t]? = some (.receive g .idle)) (text : String) :
    ∃ c', c.step t (.frame (.text text)) = some c' ∧
      c'.tasks[t]? = some (.receive g (c.receiveText text).2) ∧
      c'.shared = (c.receiveText text).1.shared :=
  exists_step_of_receiveStep (.frame (.text text)) (c.receiveText text).1 ht rfl

theorem release_request {o : Outbound} (hfree : o.holder = none) (hqueue : o.queue = [])
    (u : TaskId) : (o.request u).release = o := by
  obtain ⟨sink, holder, queue⟩ := o
  cases hfree
  cases hqueue
  rfl

/-- A reply goes out when nobody else is at the outbound slot. -/
theorem exists_steps_of_reply {response : Response}
    (ht : c.tasks[t]? = some (.receive g (.replying response .request)))
    (hfree : c.shared.outbound.holder = none) (hqueue : c.shared.outbound.queue = []) :
    ∃ choices c', c.steps t choices = some c' ∧
      (∀ choice ∈ choices, choice.isArrival = false) ∧
      (∀ report, .written (some report) ∉ choices) ∧ c'.tasks[t]? = some (.receive g .idle) ∧
      c'.shared.outbound = c.shared.outbound ∧
      ∀ g', c.shared.outbound.sink = some g' →
        c'.shared.sent = c.shared.sent ++ [⟨g', t, .text response.wire⟩] := by
  have hrestored := release_request hfree hqueue t
  have hsink := sink_request c.shared.outbound t
  obtain ⟨c₁, h₁, ht₁, hs₁⟩ :=
    exists_step_of_receiveStep .run (c.update (·.request t)) ht rfl
  have hheld : c₁.holds t = true := by
    simp [holds, hs₁, update, Shared.request, Outbound.request, Outbound.isHeldBy, hfree]
  have hout₁ : c₁.shared.outbound = c.shared.outbound.request t := congrArg Shared.outbound hs₁
  have hstep₁ : c.steps t [.run] = some c₁ := by simp [steps, h₁]
  cases hs : c.shared.outbound.sink with
  | none =>
    have hreceive : c₁.receiveStep t g .run (.replying response .lock) =
        some (c₁.update Shared.release, .idle) := by
      simp [receiveStep, sendStep, hheld, hout₁, hs]
    obtain ⟨c₂, h₂, ht₂, hs₂⟩ := exists_step_of_receiveStep .run _ ht₁ hreceive
    refine ⟨[.run, .run], c₂, by simp [steps, h₁, h₂], by simp [Choice.isArrival], by simp, ht₂, ?_,
      by simp⟩
    rw [hs₂, ← hrestored, ← hout₁]
    rfl
  | some g' =>
    have hreceive : c₁.receiveStep t g .run (.replying response .lock) =
        some (c₁, .replying response (.writing g')) := by
      simp [receiveStep, sendStep, hheld, hout₁, hs]
    obtain ⟨c₂, h₂, ht₂, hs₂⟩ := exists_step_of_receiveStep .run _ ht₁ hreceive
    obtain ⟨c₃, h₃, ht₃, hs₃⟩ := exists_step_of_receiveStep (.written none) _ ht₂ rfl
    refine ⟨[.run, .run, .written none], c₃, by simp [steps, h₁, h₂, h₃],
      by simp [Choice.isArrival], by simp, ht₃, ?_, ?_⟩
    · rw [hs₃, ← hrestored, ← hout₁, ← hs₂]
      rfl
    · rintro _ ⟨⟩
      simp [hs₃, update, logSent, Shared.release, hs₂, hs₁, Shared.request]

theorem outbound_receiveText (c : Client) (text : String) :
    (c.receiveText text).1.shared.outbound = c.shared.outbound := by
  fun_cases receiveText c text <;> rfl

theorem receiveText_phase (c : Client) (text : String) :
    (c.receiveText text).2 = .idle ∨
      (∃ response, (c.receiveText text).2 = .replying response .request) ∨
      ∃ id result, (c.receiveText text).2 = .handling id result := by
  fun_cases receiveText c text
  case case4 response _ => exact .inr (.inl ⟨response, rfl⟩)
  case case5 => exact .inr (.inr ⟨_, _, rfl⟩)
  all_goals exact .inl rfl

/-- Any text can be handled to its end when nobody else is at the outbound slot. -/
theorem exists_steps_of_text (ht : c.tasks[t]? = some (.receive g .idle))
    (hfree : c.shared.outbound.holder = none) (hqueue : c.shared.outbound.queue = [])
    (text : String) :
    ∃ choices c', c.steps t (.frame (.text text) :: choices) = some c' ∧
      (∀ choice ∈ choices, choice.isArrival = false) ∧
      (∀ report, .written (some report) ∉ choices) ∧ c'.tasks[t]? = some (.receive g .idle) ∧
      c'.shared.outbound = c.shared.outbound := by
  obtain ⟨c₁, h₁, ht₁, hs₁⟩ := exists_step_of_text ht text
  have hout₁ : c₁.shared.outbound = c.shared.outbound := by rw [hs₁, outbound_receiveText]
  have hfree₁ : c₁.shared.outbound.holder = none := by rw [hout₁, hfree]
  have hqueue₁ : c₁.shared.outbound.queue = [] := by rw [hout₁, hqueue]
  rcases receiveText_phase c text with hp | ⟨response, hp⟩ | ⟨id, result, hp⟩
  · rw [hp] at ht₁
    exact ⟨[], c₁, by simp [steps, h₁], by simp, by simp, ht₁, hout₁⟩
  · rw [hp] at ht₁
    obtain ⟨choices, c₂, h₂, harrivals, hwritten, ht₂, hout₂, -⟩ :=
      exists_steps_of_reply ht₁ hfree₁ hqueue₁
    exact ⟨choices, c₂, by simp [steps, h₁, h₂], harrivals, hwritten, ht₂, hout₂.trans hout₁⟩
  · rw [hp] at ht₁
    obtain ⟨c₂, h₂, ht₂, hs₂⟩ := exists_step_of_receiveStep .settled _ ht₁ rfl
    have hout₂ : c₂.shared.outbound = c₁.shared.outbound := congrArg Shared.outbound hs₂
    cases id with
    | none =>
      exact ⟨[.settled], c₂, by simp [steps, h₁, h₂], by simp [Choice.isArrival], by simp, ht₂,
        hout₂.trans hout₁⟩
    | some id =>
      obtain ⟨choices, c₃, h₃, harrivals, hwritten, ht₃, hout₃, -⟩ :=
        exists_steps_of_reply ht₂ (by rw [hout₂, hfree₁]) (by rw [hout₂, hqueue₁])
      exact ⟨.settled :: choices, c₃, by simp [steps, h₁, h₂, h₃],
        List.forall_mem_cons.2 ⟨rfl, harrivals⟩, by simpa using hwritten, ht₃,
        hout₃.trans (hout₂.trans hout₁)⟩

/-- So can any number of texts, one after the other. -/
theorem exists_steps_of_texts (ht : c.tasks[t]? = some (.receive g .idle))
    (hfree : c.shared.outbound.holder = none) (hqueue : c.shared.outbound.queue = [])
    (texts : List String) :
    ∃ choices c', c.steps t choices = some c' ∧ choices.flatMap Choice.texts = texts ∧
      (∀ report, .written (some report) ∉ choices) ∧ c'.tasks[t]? = some (.receive g .idle) := by
  induction texts generalizing c with
  | nil => exact ⟨[], c, rfl, rfl, by simp, ht⟩
  | cons text texts ih =>
    obtain ⟨first, c₁, h₁, harrivals, hwritten₁, ht₁, hout₁⟩ :=
      exists_steps_of_text ht hfree hqueue text
    obtain ⟨rest, c₂, h₂, htexts, hwritten₂, ht₂⟩ :=
      ih ht₁ (by rw [hout₁, hfree]) (by rw [hout₁, hqueue])
    refine ⟨(.frame (.text text) :: first) ++ rest, c₂, by rw [steps_append, h₁]; exact h₂, ?_, ?_,
      ht₂⟩
    · rw [List.flatMap_append, List.flatMap_cons, Choice.texts_of_isArrival harrivals, htexts]
      rfl
    · simpa using fun report => ⟨hwritten₁ report, hwritten₂ report⟩

theorem idle_of_reading? (h : (c.tasks[t]?).bind Task.reading? = some g) :
    c.tasks[t]? = some (.receive g .idle) := by
  obtain ⟨task, htask, hreading⟩ := Option.bind_eq_some_iff.1 h
  unfold Task.reading? at hreading
  split at hreading
  · cases hreading
    exact htask
  · cases hreading

end Client
end DuplexRpc
