import DuplexRpc.Proofs.Client.Histories
import DuplexRpc.Proofs.Client.Links
import DuplexRpc.Proofs.Client.Replies

/-!
The reply that a receiver owes. From the text that calls for it on, and whatever the other tasks do,
the receiver goes on to owe it until it has written it once or lost it. It need not lose it: with
the link up and nobody else at the outbound slot it can write it.
-/
namespace DuplexRpc.Client

variable {c c' c₁ : Client} {t u : TaskId} {g : Generation} {choice : Choice} {p p' : ReceivePhase}
  {m : Move} {ms : List Move} {task task' : Task} {text : String} {response : Response}
  {before : List Sent}

/-- What a task has written. -/
def writtenBy (c : Client) (t : TaskId) : List Sent := c.shared.sent.filter (·.writer == t)

theorem TaskStep.writtenBy_of_ne (h : TaskStep c t choice task c₁ task') (hne : u ≠ t) :
    c₁.writtenBy u = c.writtenBy u := by
  obtain ⟨hd, -⟩ | ⟨p, p', rfl, rfl, hdiscard⟩ := h.grows_or_discards
  · obtain hsent | ⟨g, content, -, hsent⟩ := h.log hd
    · rw [writtenBy, hsent, writtenBy]
    · simp [writtenBy, hsent, Ne.symm hne]
  · have hsent : c₁.shared.sent = c.shared.sent := congrArg Lasting.sent hdiscard.lasting_eq
    rw [writtenBy, hsent, writtenBy]

theorem writtenBy_of_apply (h : c.apply m = some c') (hm : ∀ choice, m ≠ .step t choice) :
    c'.writtenBy t = c.writtenBy t := by
  cases apply_cases h with
  | @step u choice task task' c₁ hu hstep =>
    have hne : t ≠ u := by
      rintro rfl
      exact hm choice rfl
    exact hstep.writtenBy_of_ne hne
  | _ => rfl

/-- A receiver that takes no text goes on to owe what it owed, or to owe nothing; then it has
written the reply, or lost it. -/
theorem receiveStep_owed (hchoice : choice.texts = [])
    (h : c.receiveStep t g choice p = some (c₁, p')) :
    (p'.owed = p.owed ∧ c₁.shared.sent = c.shared.sent) ∨
    (p'.owed = [] ∧ (c₁.shared.sent = c.shared.sent ∨
      ∃ response g', p.owed = [response] ∧
        c₁.shared.sent = c.shared.sent ++ [response.sentBy g' t])) := by
  have hstep : TaskStep c t choice (.receive g p) c₁ (.receive g p') :=
    taskStep_cases (by rw [taskStep, h]; rfl)
  revert h
  fun_cases receiveStep c t g choice p
  all_goals intro h
  case case1 => cases hchoice
  case case2 f hf =>
    obtain ⟨rfl, rfl⟩ := Prod.mk.inj (Option.some.inj h)
    refine .inl ⟨?_, rfl⟩
    split <;> rfl
  case case3 =>
    cases h
    exact .inl ⟨rfl, rfl⟩
  case case6 id result =>
    cases h
    refine .inl ⟨?_, rfl⟩
    cases id <;> rfl
  case case8 response q =>
    obtain ⟨⟨c₂, next⟩, hsend, heq⟩ := Option.map_eq_some_iff.1 h
    cases sendStep_cases hsend with
    | ask | begin held hsink =>
      cases heq
      exact .inl ⟨rfl, rfl⟩
    | written g' =>
      cases heq
      exact .inr ⟨rfl, .inr ⟨response, g', rfl, rfl⟩⟩
    | unconnected held hsink | broken g' report =>
      cases heq
      exact .inr ⟨rfl, .inl rfl⟩
  case case9 q =>
    obtain ⟨⟨c₂, next⟩, -, heq⟩ := Option.map_eq_some_iff.1 h
    obtain hsent | ⟨_, _, hwriting, -⟩ := hstep.log rfl
    · refine .inl ⟨?_, hsent⟩
      cases next <;> cases heq <;> rfl
    · cases hwriting
  all_goals cases h

/-- A receiver after a text: it still owes the reply, or it has written it once, or lost it. -/
def Owes (t : TaskId) (g : Generation) (response : Response) (before : List Sent)
    (c : Client) : Prop :=
  ∃ p, c.tasks[t]? = some (.receive g p) ∧
    ((p.owed = [response] ∧ c.writtenBy t = before) ∨
      (p.owed = [] ∧ (c.writtenBy t = before ∨
        ∃ g', c.writtenBy t = before ++ [response.sentBy g' t])))

theorem Owes.step (h : c.Owes t g response before) (hstep : c.step t choice = some c')
    (hchoice : choice.texts = []) : c'.Owes t g response before := by
  obtain ⟨p, ht, howes⟩ := h
  obtain ⟨task, c₁, task', htask, hstep, rfl⟩ := step_eq_some_iff.1 hstep
  cases ht.symm.trans htask
  obtain ⟨⟨c₂, p'⟩, hreceive, heq⟩ := Option.map_eq_some_iff.1 hstep
  cases heq
  refine ⟨p', (taskStep_cases hstep).getElem?_set_self ht, ?_⟩
  have hwritten {sent : List Sent} (hsent : c₁.shared.sent = c.shared.sent ++ sent) :
      writtenBy ⟨c₁.shared, c₁.tasks.set t (.receive g p')⟩ t =
        c.writtenBy t ++ sent.filter (·.writer == t) := by
    rw [writtenBy, hsent, List.filter_append, writtenBy]
  obtain ⟨howed, hsent⟩ | ⟨howed, hsent | ⟨response', g', hp, hsent⟩⟩ :=
    receiveStep_owed hchoice hreceive
  · have hw := hwritten (hsent.trans (List.append_nil _).symm)
    rwa [howed, hw, List.filter_nil, List.append_nil]
  · have hw := hwritten (hsent.trans (List.append_nil _).symm)
    rw [hw, List.filter_nil, List.append_nil]
    exact .inr ⟨howed, howes.elim (fun h => .inl h.2) And.right⟩
  · have hw := hwritten hsent
    obtain ⟨hp', hbefore⟩ | ⟨hp', -⟩ := howes
    · cases hp.symm.trans hp'
      refine .inr ⟨howed, .inr ⟨g', ?_⟩⟩
      rw [hw, hbefore]
      simp [Response.sentBy]
    · cases hp.symm.trans hp'

theorem Owes.apply (h : c.Owes t g response before) (happly : c.apply m = some c')
    (hm : ∀ choice, m = .step t choice → choice.texts = []) :
    c'.Owes t g response before := by
  by_cases hself : ∃ choice, m = .step t choice
  · obtain ⟨choice, rfl⟩ := hself
    exact h.step happly (hm choice rfl)
  obtain ⟨p, ht, howes⟩ := h
  have hw := writtenBy_of_apply happly (not_exists.1 hself)
  have hbecomes := becomes_of_apply happly t
  rw [ht] at hbecomes
  generalize hx : c'.tasks[t]? = x at hbecomes
  cases hbecomes with
  | kept _ hother => exact ⟨p, hx, hw ▸ howes⟩
  | stepped hm hstep hshared => exact absurd ⟨_, hm⟩ hself
  | aborted hother hkind hserving hdone =>
    obtain ⟨p', rfl⟩ := exists_receive_of_kind hkind
    refine ⟨p', hx, .inr ⟨?_, ?_⟩⟩
    · cases p' <;> first | rfl | cases hdone
    · rw [hw]
      exact howes.elim (fun h => .inl h.2) And.right

theorem Owes.follow (h : c.Owes t g response before) (hfollow : c.follow ms = some c')
    (hms : ∀ choice, .step t choice ∈ ms → choice.texts = []) :
    c'.Owes t g response before :=
  follow_induct_of_forall (P := fun c => c.Owes t g response before)
    (Q := fun m => ∀ choice, m = .step t choice → choice.texts = [])
    (fun _ hm choice heq => hms choice (heq ▸ hm)) hfollow h
    (fun _ _ _ hm happly h => h.apply happly hm)

/-- Taking a text writes nothing; from then on the reply that it called for is owed. -/
theorem owes_of_text (ht : c.tasks[t]? = some (.receive g .idle))
    (howed : (c.receiveText text).2.owed = [response])
    (h : c.step t (.frame (.text text)) = some c') : c'.Owes t g response (c.writtenBy t) := by
  obtain ⟨c₁, h₁, ht₁, hs₁⟩ := exists_step_of_text ht text
  cases h.symm.trans h₁
  refine ⟨_, ht₁, .inl ⟨howed, ?_⟩⟩
  rw [writtenBy, hs₁, (receiveText_frame c text).2.1, writtenBy]

/-- When nobody else is at the outbound slot, a reply that is owed can be written. -/
theorem exists_steps_of_owed (ht : c.tasks[t]? = some (.receive g .idle))
    (howed : (c.receiveText text).2.owed = [response])
    (hfree : c.shared.outbound.holder = none) (hqueue : c.shared.outbound.queue = [])
    (hsink : c.shared.outbound.sink = some g) :
    ∃ choices c', c.steps t (.frame (.text text) :: choices) = some c' ∧
      choices.flatMap Choice.texts = [] ∧
      c'.shared.sent = c.shared.sent ++ [response.sentBy g t] := by
  obtain ⟨c₁, h₁, ht₁, hs₁⟩ := exists_step_of_text ht text
  have hout₁ : c₁.shared.outbound = c.shared.outbound := by rw [hs₁, outbound_receiveText]
  have hsent₁ : c₁.shared.sent = c.shared.sent := by rw [hs₁, (receiveText_frame c text).2.1]
  have hreply {c₂ : Client} (ht₂ : c₂.tasks[t]? = some (.receive g (.replying response .request)))
      (hs₂ : c₂.shared = c₁.shared) : ∃ choices c', c₂.steps t choices = some c' ∧
        choices.flatMap Choice.texts = [] ∧
        c'.shared.sent = c.shared.sent ++ [response.sentBy g t] := by
    have hout₂ : c₂.shared.outbound = c.shared.outbound := by rw [hs₂, hout₁]
    obtain ⟨choices, c', h, harrivals, -, -, -, hsent⟩ :=
      exists_steps_of_reply ht₂ (by rw [hout₂, hfree]) (by rw [hout₂, hqueue])
    refine ⟨choices, c', h, Choice.texts_of_isArrival harrivals, ?_⟩
    rw [hsent g (by rw [hout₂, hsink]), hs₂, hsent₁]
    rfl
  obtain hp | ⟨response', hp⟩ | ⟨id, result, hp⟩ := receiveText_phase c text
  · rw [hp] at howed
    cases howed
  · rw [hp] at howed ht₁
    cases howed
    obtain ⟨choices, c', h, htexts, hsent⟩ := hreply ht₁ rfl
    exact ⟨choices, c', by simp [steps, h₁, h], htexts, hsent⟩
  · rw [hp] at howed ht₁
    cases id with
    | none => cases howed
    | some id =>
      cases howed
      obtain ⟨c₂, h₂, ht₂, hs₂⟩ := exists_step_of_receiveStep .settled _ ht₁ rfl
      obtain ⟨choices, c', h, htexts, hsent⟩ := hreply ht₂ hs₂
      refine ⟨.settled :: choices, c', by simp [steps, h₁, h₂, h], ?_, hsent⟩
      rw [List.flatMap_cons, htexts]
      rfl

end DuplexRpc.Client
