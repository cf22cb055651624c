import DuplexRpc.Proofs.Client.Replies

/-!
A receiver that deals with a sequence of frames. It takes the next frame when it is idle and comes
to rest when it is done with the last one. How it does so is settled by the frames and by how its
writes end.
-/
namespace DuplexRpc

namespace Frame

/-- What a frame does to the waiting calls. -/
def settle (pending : PendingTable) : Frame → PendingTable
  | text s => pending.settleText s
  | _ => pending

/-- The frames up to the first one that ends the link; what comes behind it is not taken. -/
def taken : List Frame → List Frame
  | [] => []
  | f :: frames => f :: if f.endsLink then [] else taken frames

theorem taken_cons (h : f.endsLink = false) (frames : List Frame) :
    taken (f :: frames) = f :: taken frames := by
  rw [taken, if_neg (by simp [h])]

end Frame

namespace Choice

/-- The frame that arrives with a choice. -/
def frames : Choice → List Frame
  | frame f => [f]
  | _ => []

/-- How a write has ended. -/
def reports : Choice → List (Option String)
  | written report => [report]
  | _ => []

theorem frames_of_isArrival {choices : List Choice}
    (h : ∀ choice ∈ choices, choice.isArrival = false) : choices.flatMap frames = [] := by
  refine List.flatMap_eq_nil_iff.2 fun choice hmem => ?_
  cases choice with
  | frame f => cases h _ hmem
  | _ => rfl

theorem eq_none_of_mem_reports {choices : List Choice}
    (h : ∀ report, written (some report) ∉ choices) :
    ∀ report ∈ choices.flatMap reports, report = none := by
  intro report hmem
  obtain ⟨choice, hchoice, hreport⟩ := List.mem_flatMap.1 hmem
  cases choice with
  | written report' =>
    cases List.mem_singleton.1 hreport
    cases report with
    | none => rfl
    | some text => exact absurd hchoice (h text)
  | _ => cases hreport

end Choice

/-- The receiver has dealt with a frame, or the frame has ended its link. -/
def ReceivePhase.rests : ReceivePhase → Bool
  | idle => true
  | disconnecting .detach => true
  | _ => false

namespace Client

variable {c c' c₁ : Client} {t : TaskId} {g : Generation} {choice choice' : Choice}
  {p p' : ReceivePhase} {f : Frame} {frames frames' : List Frame} {reports : List (Option String)}
  {choices choices' : List Choice}

/-- The task is a receiver that has dealt with every frame that it has taken. -/
def RestsAt (c : Client) (t : TaskId) : Prop :=
  ∃ g p, c.tasks[t]? = some (.receive g p) ∧ p.rests = true

/-- The receiver takes the frames, up to one that ends the link, and deals with them to their end,
while its writes end as reported and nothing cancels it. -/
structure Handles (c : Client) (t : TaskId) (frames : List Frame) (reports : List (Option String))
    (c' : Client) : Prop where
  ran : ∃ choices, c.steps t choices = some c' ∧
    choices.flatMap Choice.frames = Frame.taken frames ∧
    choices.flatMap Choice.reports = reports ∧ Choice.cancelled ∉ choices
  rests : c'.RestsAt t

/-- A step of a receiver that serves: it takes the next frame if it is idle, and otherwise goes on
with the last one. Only a frame that ends the link ends its service. -/
theorem receiveStep_takes (h : c.receiveStep t g choice p = some (c', p')) (hp : p.serves = true)
    (hchoice : choice ≠ .cancelled) :
    (∃ f, choice = .frame f ∧ p = .idle ∧ f.endsLink = true ∧ c' = c ∧
      p' = .disconnecting .detach) ∨
    p'.serves = true ∧ c'.shared.registry.has = c.shared.registry.has ∧
      ((∃ f, choice = .frame f ∧ p = .idle ∧ f.endsLink = false ∧
        c'.shared.pending = f.settle c.shared.pending) ∨
      (choice.frames = [] ∧ p ≠ .idle ∧ c'.shared.pending = c.shared.pending)) := by
  cases p with
  | idle =>
    cases choice with
    | frame f =>
      cases f with
      | text s =>
        have htaken : c.receiveText s = (c', p') := Option.some.inj h
        have hframe := receiveText_frame c s
        have hpending := receiveText_pending c s
        have hphase := receiveText_phase c s
        rw [htaken] at hframe hpending hphase
        refine .inr ⟨?_, hframe.1, .inl ⟨_, rfl, rfl, rfl, hpending⟩⟩
        dsimp only at hphase
        obtain rfl | ⟨response, rfl⟩ | ⟨id, result, rfl⟩ := hphase <;> rfl
      | binary =>
        cases h
        exact .inr ⟨rfl, rfl, .inl ⟨_, rfl, rfl, rfl, rfl⟩⟩
      | _ =>
        cases h
        exact .inl ⟨_, rfl, rfl, rfl, rfl, rfl⟩
    | cancelled => exact absurd rfl hchoice
    | _ => cases h
  | handling id result =>
    cases choice with
    | settled =>
      cases h
      cases id <;> exact .inr ⟨rfl, rfl, .inr ⟨rfl, nofun, rfl⟩⟩
    | _ => cases h
  | replying response q =>
    obtain ⟨⟨c₁, next⟩, hsend, heq⟩ := Option.map_eq_some_iff.1 h
    obtain ⟨hpending, hregistry, -⟩ := sendStep_frame hsend
    have hframes : choice.frames = [] := by
      cases choice with
      | frame f => cases q <;> cases hsend
      | _ => rfl
    cases next <;> cases heq <;>
      exact .inr ⟨rfl, congrArg Registry.has hregistry, .inr ⟨hframes, nofun, hpending⟩⟩
  | _ => cases hp

theorem disconnectStep_ne_detach (p : DisconnectPhase) :
    c.disconnectStep t g choice p ≠ some (c', .phase .detach) := by
  fun_cases disconnectStep c t g choice p
  all_goals intro h
  case case7 => split at h <;> cases h
  case case16 => split at h <;> cases h
  case case18 p =>
    obtain ⟨⟨c₁, next⟩, -, heq⟩ := Option.map_eq_some_iff.1 h
    cases next <;> cases heq
  all_goals cases h

/-- A receiver that has left its link never comes to rest again. -/
theorem receiveStep_left (h : c.receiveStep t g choice p = some (c', p'))
    (hp : p.serves = false) : p'.serves = false ∧ p'.rests = false := by
  cases p with
  | disconnecting q =>
    obtain ⟨⟨c₁, next⟩, hstep, heq⟩ := Option.map_eq_some_iff.1 h
    rcases next with q' | r <;> cases heq
    · cases q' with
      | detach => exact absurd hstep (disconnectStep_ne_detach q)
      | _ => exact ⟨rfl, rfl⟩
    · exact ⟨rfl, rfl⟩
  | done => cases h
  | _ => cases hp

theorem eq_nil_of_left (ht : c.tasks[t]? = some (.receive g p)) (hp : p.serves = false)
    (h : c.steps t choices = some c') (hrests : c'.RestsAt t) : choices = [] := by
  cases choices with
  | nil => rfl
  | cons choice choices =>
    obtain ⟨c₁, h₁, h⟩ := Option.bind_eq_some_iff.1 h
    obtain ⟨c₂, p₁, hreceive, -, ht₁⟩ := receiveStep_of_step ht h₁
    obtain ⟨p₂, ht₂, -, hgone⟩ := steps_induct
      (P := fun c => ∃ p, c.tasks[t]? = some (.receive g p) ∧ p.serves = false ∧ p.rests = false)
      (fun c choice c' hstep ⟨p, ht, hp, _⟩ => by
        obtain ⟨c₁, p', hreceive, -, ht'⟩ := receiveStep_of_step ht hstep
        exact ⟨p', ht', receiveStep_left hreceive hp⟩)
      h ⟨p₁, ht₁, receiveStep_left hreceive hp⟩
    obtain ⟨g', p', ht', hp'⟩ := hrests
    cases ht'.symm.trans ht₂
    cases hp'.symm.trans hgone

/-- A receiver at rest has nothing to do but to take a frame. -/
theorem eq_nil_of_rests (hrests : c.RestsAt t) (h : c.steps t choices = some c')
    (hcancelled : Choice.cancelled ∉ choices) (hframes : choices.flatMap Choice.frames = [])
    (hrests' : c'.RestsAt t) : choices = [] := by
  obtain ⟨g, p, ht, hp⟩ := hrests
  cases p with
  | idle =>
    cases choices with
    | nil => rfl
    | cons choice choices =>
      obtain ⟨c₁, h₁, -⟩ := Option.bind_eq_some_iff.1 h
      obtain ⟨c₂, p₁, hreceive, -⟩ := receiveStep_of_step ht h₁
      cases choice with
      | frame f => cases hframes
      | cancelled => exact absurd (.head _) hcancelled
      | _ => cases hreceive
  | disconnecting q => exact eq_nil_of_left ht rfl h hrests'
  | _ => cases hp

/-- Of the steps that a receiver can take where it serves, the next frame or the end of its write
chooses one. -/
theorem choice_eq (h : c.receiveStep t g choice p = some (c', p'))
    (h' : c.receiveStep t g choice' p = some (c₁, p₁)) (hp : p.serves = true)
    (hchoice : choice ≠ .cancelled) (hchoice' : choice' ≠ .cancelled)
    (hframes : (choice :: choices).flatMap Choice.frames =
      (choice' :: choices').flatMap Choice.frames)
    (hreports : (choice :: choices).flatMap Choice.reports =
      (choice' :: choices').flatMap Choice.reports) : choice = choice' := by
  cases p with
  | idle =>
    cases choice with
    | frame f =>
      cases choice' with
      | frame f' => exact congrArg _ (List.cons.inj hframes).1
      | cancelled => exact absurd rfl hchoice'
      | _ => cases h'
    | cancelled => exact absurd rfl hchoice
    | _ => cases h
  | handling id result =>
    cases choice with
    | settled =>
      cases choice' with
      | settled => rfl
      | _ => cases h'
    | _ => cases h
  | replying response q =>
    obtain ⟨r, hsend, -⟩ := Option.map_eq_some_iff.1 h
    obtain ⟨r', hsend', -⟩ := Option.map_eq_some_iff.1 h'
    cases q with
    | writing g' =>
      cases choice with
      | written report =>
        cases choice' with
        | written report' => exact congrArg _ (List.cons.inj hreports).1
        | _ => cases hsend'
      | _ => cases hsend
    | _ =>
      cases choice with
      | run =>
        cases choice' with
        | run => rfl
        | _ => cases hsend'
      | _ => cases hsend
  | _ => cases hp

/-- The steps of a receiver that comes to rest are settled by the frames that it takes and the ends
of its writes. -/
theorem steps_unique (ht : c.tasks[t]? = some (.receive g p)) (h : c.steps t choices = some c')
    (h' : c.steps t choices' = some c₁) (hcancelled : Choice.cancelled ∉ choices)
    (hcancelled' : Choice.cancelled ∉ choices')
    (hframes : choices.flatMap Choice.frames = choices'.flatMap Choice.frames)
    (hreports : choices.flatMap Choice.reports = choices'.flatMap Choice.reports)
    (hrests : c'.RestsAt t) (hrests' : c₁.RestsAt t) : choices = choices' := by
  induction choices generalizing c p choices' with
  | nil =>
    cases h
    exact (eq_nil_of_rests hrests h' hcancelled' hframes.symm hrests').symm
  | cons choice choices ih =>
    cases choices' with
    | nil =>
      cases h'
      exact eq_nil_of_rests hrests' h hcancelled hframes hrests
    | cons choice' choices' =>
      cases hp : p.serves with
      | false => cases eq_nil_of_left ht hp h hrests
      | true =>
        rw [List.mem_cons, not_or] at hcancelled hcancelled'
        obtain ⟨c₂, h₂, h⟩ := Option.bind_eq_some_iff.1 h
        obtain ⟨c₃, h₃, h'⟩ := Option.bind_eq_some_iff.1 h'
        obtain ⟨c₄, p₁, hreceive, -, ht₂⟩ := receiveStep_of_step ht h₂
        obtain ⟨c₅, p₂, hreceive', -⟩ := receiveStep_of_step ht h₃
        obtain rfl := choice_eq hreceive hreceive' hp (Ne.symm hcancelled.1)
          (Ne.symm hcancelled'.1) hframes hreports
        cases h₂.symm.trans h₃
        rw [ih ht₂ h h' hcancelled.2 hcancelled'.2 (List.append_cancel_left hframes)
          (List.append_cancel_left hreports)]

theorem Handles.of_steps (h : c.steps t choices = some c₁) (hcancelled : Choice.cancelled ∉ choices)
    (hrest : c₁.Handles t frames reports c')
    (hframes : choices.flatMap Choice.frames ++ Frame.taken frames = Frame.taken frames') :
    c.Handles t frames' (choices.flatMap Choice.reports ++ reports) c' := by
  obtain ⟨⟨choices', h', hframes', rfl, hcancelled'⟩, hrests⟩ := hrest
  refine ⟨⟨choices ++ choices', ?_, ?_, List.flatMap_append, ?_⟩, hrests⟩
  · rw [steps_append, h]
    exact h'
  · rw [List.flatMap_append, hframes', hframes]
  · exact fun hmem => (List.mem_append.1 hmem).elim hcancelled hcancelled'

/-- A step that changes neither the client nor the phase leaves all as it is. -/
theorem step_of_still (ht : c.tasks[t]? = some (.receive g p))
    (h : c.receiveStep t g choice p = some (c, p)) : c.step t choice = some c := by
  refine step_eq_some_iff.2 ⟨_, c, .receive g p, ht, by rw [taskStep, h]; rfl, ?_⟩
  obtain ⟨hlt, heq⟩ := List.getElem?_eq_some_iff.1 ht
  rw [← heq, List.set_getElem_self]

theorem Handles.of_still (h : c.Handles t frames reports c')
    (ht : c.tasks[t]? = some (.receive g .idle)) (hends : f.endsLink = false)
    (hstill : c.receiveStep t g (.frame f) .idle = some (c, .idle)) :
    c.Handles t (f :: frames) reports c' := by
  have hsteps : c.steps t [.frame f] = some c := by
    rw [steps, step_of_still ht hstill]
    rfl
  exact .of_steps hsteps (by simp) h (Frame.taken_cons hends _).symm

/-- An idle receiver begins with the next frame. -/
theorem exists_step_of_frames (ht : c.tasks[t]? = some (.receive g .idle))
    (h : c.steps t choices = some c') (hcancelled : Choice.cancelled ∉ choices)
    (hframes : choices.flatMap Choice.frames = f :: frames) :
    ∃ rest c₁, choices = .frame f :: rest ∧ c.step t (.frame f) = some c₁ ∧
      c₁.steps t rest = some c' ∧ rest.flatMap Choice.frames = frames := by
  cases choices with
  | nil => cases hframes
  | cons choice rest =>
    obtain ⟨c₁, h₁, h'⟩ := Option.bind_eq_some_iff.1 h
    obtain ⟨c₂, p₁, hreceive, -⟩ := receiveStep_of_step ht h₁
    cases choice with
    | frame f' =>
      obtain ⟨rfl, hrest⟩ := List.cons.inj hframes
      exact ⟨rest, c₁, rfl, h₁, h', hrest⟩
    | cancelled => exact absurd (.head _) hcancelled
    | _ => cases hreceive

/-- A receiver that serves is idle again before it takes the next frame. -/
theorem exists_idle_of_serves (ht : c.tasks[t]? = some (.receive g p)) (hp : p.serves = true)
    (h : c.steps t choices = some c') (hcancelled : Choice.cancelled ∉ choices)
    (hrests : c'.RestsAt t) :
    ∃ first rest c₁, choices = first ++ rest ∧ c.steps t first = some c₁ ∧
      c₁.steps t rest = some c' ∧ c₁.tasks[t]? = some (.receive g .idle) ∧
      first.flatMap Choice.frames = [] ∧ c₁.shared.pending = c.shared.pending ∧
      c₁.shared.registry.has = c.shared.registry.has := by
  induction choices generalizing c p with
  | nil =>
    cases h
    obtain ⟨g', p', ht', hp'⟩ := hrests
    cases ht.symm.trans ht'
    cases p with
    | idle => exact ⟨[], [], c', rfl, rfl, rfl, ht, rfl, rfl, rfl⟩
    | handling | replying => cases hp'
    | _ => cases hp
  | cons choice choices ih =>
    rw [List.mem_cons, not_or] at hcancelled
    obtain ⟨c₁, h₁, hrest⟩ := Option.bind_eq_some_iff.1 h
    obtain ⟨c₂, p₁, hreceive, hshared, ht₁⟩ := receiveStep_of_step ht h₁
    have hidle (hidle : p = .idle) := hidle ▸ ht
    obtain ⟨f, -, hp, -⟩ | ⟨hserves, hhas, ⟨f, -, hp, -⟩ | ⟨hframes, -, hpending⟩⟩ :=
      receiveStep_takes hreceive hp (Ne.symm hcancelled.1)
    · exact ⟨[], choice :: choices, c, rfl, rfl, h, hidle hp, rfl, rfl, rfl⟩
    · exact ⟨[], choice :: choices, c, rfl, rfl, h, hidle hp, rfl, rfl, rfl⟩
    · rw [← hshared] at hhas hpending
      obtain ⟨first, rest, c₃, rfl, hfirst, hrest, ht₃, hframes₃, hpending₃, hhas₃⟩ :=
        ih ht₁ hserves hrest hcancelled.2
      exact ⟨choice :: first, rest, c₃, rfl, by rw [steps, h₁]; exact hfirst, hrest, ht₃,
        by simp [hframes, hframes₃], hpending₃.trans hpending, hhas₃.trans hhas⟩

/-- What a receiver does about the first of some frames, and what it then does about the others. -/
theorem Handles.uncons (ht : c.tasks[t]? = some (.receive g .idle)) (hends : f.endsLink = false)
    (h : c.Handles t (f :: frames) reports c') :
    ∃ choices c₁ reports', c.steps t choices = some c₁ ∧ Choice.cancelled ∉ choices ∧
      choices.flatMap Choice.frames = [f] ∧ c₁.tasks[t]? = some (.receive g .idle) ∧
      c₁.shared.pending = f.settle c.shared.pending ∧
      c₁.shared.registry.has = c.shared.registry.has ∧ c₁.Handles t frames reports' c' ∧
      reports = choices.flatMap Choice.reports ++ reports' := by
  obtain ⟨⟨choices, hsteps, hframes, rfl, hcancelled⟩, hrests⟩ := h
  rw [Frame.taken_cons hends] at hframes
  obtain ⟨rest, c₁, rfl, h₁, hrest, hframes⟩ := exists_step_of_frames ht hsteps hcancelled hframes
  rw [List.mem_cons, not_or] at hcancelled
  obtain ⟨c₂, p₁, hreceive, hshared, ht₁⟩ := receiveStep_of_step ht h₁
  obtain ⟨f', hf, -, hends', -⟩ | ⟨hserves, hhas, ⟨f', hf, -, -, hpending⟩ | ⟨hnone, -⟩⟩ :=
    receiveStep_takes hreceive rfl (Ne.symm hcancelled.1)
  · cases hf
    cases hends.symm.trans hends'
  · cases hf
    rw [← hshared] at hhas hpending
    obtain ⟨first, rest, c₃, rfl, hfirst, hrest, ht₃, hnone, hpending₃, hhas₃⟩ :=
      exists_idle_of_serves ht₁ hserves hrest hcancelled.2 hrests
    rw [List.mem_append, not_or] at hcancelled
    rw [List.flatMap_append, hnone] at hframes
    refine ⟨.frame f :: first, c₃, rest.flatMap Choice.reports, by rw [steps, h₁]; exact hfirst, ?_,
      by rw [List.flatMap_cons, hnone]; rfl, ht₃, hpending₃.trans hpending, hhas₃.trans hhas,
      ⟨⟨rest, hrest, hframes, rfl, hcancelled.2.2⟩, hrests⟩, List.flatMap_append⟩
    exact fun hmem => (List.mem_cons.1 hmem).elim hcancelled.1 hcancelled.2.1
  · cases hnone

theorem Handles.unique (ht : c.tasks[t]? = some (.receive g .idle))
    (h : c.Handles t frames reports c') (h' : c.Handles t frames reports c₁) : c' = c₁ := by
  obtain ⟨⟨choices, hsteps, hframes, hreports, hcancelled⟩, hrests⟩ := h
  obtain ⟨⟨choices', hsteps', hframes', hreports', hcancelled'⟩, hrests'⟩ := h'
  obtain rfl := steps_unique ht hsteps hsteps' hcancelled hcancelled'
    (hframes.trans hframes'.symm) (hreports.trans hreports'.symm) hrests hrests'
  exact Option.some.inj (hsteps.symm.trans hsteps')

theorem exists_step_of_endsLink (ht : c.tasks[t]? = some (.receive g .idle))
    (hends : f.endsLink = true) : ∃ c', c.step t (.frame f) = some c' ∧ c'.RestsAt t := by
  have hreceive : c.receiveStep t g (.frame f) .idle = some (c, .disconnecting .detach) := by
    cases f <;> first | rfl | cases hends
  obtain ⟨c', h, ht', -⟩ := exists_step_of_receiveStep _ c ht hreceive
  exact ⟨c', h, g, _, ht', rfl⟩

/-- Any frames can be dealt with when nobody else is at the outbound slot. -/
theorem exists_handles (ht : c.tasks[t]? = some (.receive g .idle))
    (hfree : c.shared.outbound.holder = none) (hqueue : c.shared.outbound.queue = [])
    (frames : List Frame) :
    ∃ reports c', c.Handles t frames reports c' ∧ ∀ report ∈ reports, report = none := by
  induction frames generalizing c with
  | nil => exact ⟨[], c, ⟨⟨[], rfl, rfl, rfl, nofun⟩, g, .idle, ht, rfl⟩, nofun⟩
  | cons f frames ih =>
    cases hends : f.endsLink with
    | true =>
      obtain ⟨c', h, hrests⟩ := exists_step_of_endsLink ht hends
      refine ⟨[], c', ⟨⟨[.frame f], by rw [steps, h]; rfl, ?_, rfl, by simp⟩, hrests⟩, nofun⟩
      rw [Frame.taken, if_pos hends]
      rfl
    | false =>
      cases f with
      | text s =>
        obtain ⟨choices, c₁, h₁, harrivals, hwritten, ht₁, hout₁⟩ :=
          exists_steps_of_text ht hfree hqueue s
        obtain ⟨reports, c', hrest, hreports⟩ := ih ht₁ (hout₁ ▸ hfree) (hout₁ ▸ hqueue)
        refine ⟨_, c', .of_steps h₁ (fun hmem => ?_) hrest ?_, fun report hmem => ?_⟩
        · obtain h | hmem := List.mem_cons.1 hmem
          · cases h
          · cases harrivals _ hmem
        · rw [List.flatMap_cons, Choice.frames_of_isArrival harrivals, Frame.taken_cons rfl]
          rfl
        · obtain hmem | hmem := List.mem_append.1 hmem
          · exact Choice.eq_none_of_mem_reports hwritten report hmem
          · exact hreports report hmem
      | binary =>
        obtain ⟨reports, c', hrest, hreports⟩ := ih ht hfree hqueue
        exact ⟨reports, c', hrest.of_still ht rfl rfl, hreports⟩
      | _ => cases hends

end Client
end DuplexRpc
