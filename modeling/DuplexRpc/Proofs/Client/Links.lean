import DuplexRpc.Client.Waiting
import DuplexRpc.Proofs.Client.Succession

/-!
Links, and what is written to them. A task writes to the sink that it found in the slot when it
came to the head of the line. No generation is later than that of the link, neither one that is
installed, in the slot or served nor one that has been written to.
-/
namespace DuplexRpc.Client

variable {config : Config} {c c₁ : Client} {t u : TaskId} {choice : Choice} {task task' x : Task}
  {g g' : Generation} {p p' : ReceivePhase}

theorem SendStep.log {text : String} {p : SendPhase} {next : Next SendPhase (Except Failure Unit)}
    (h : SendStep c t text p c₁ next) : c₁.shared.sent = c.shared.sent ∨
      ∃ g content, p = .writing g ∧ next = .over (.ok ()) ∧
        c₁.shared.sent = c.shared.sent ++ [⟨g, t, content⟩] := by
  cases h with
  | written g => exact .inr ⟨g, _, rfl, rfl, rfl⟩
  | _ => exact .inl rfl

theorem CallStep.log {spec : CallSpec} {p : CallPhase} {next : Next CallPhase (Option Outcome)}
    (h : CallStep c t spec choice p c₁ next) : c₁.shared.sent = c.shared.sent ∨
      ∃ id n g content, p = .sending id n (.writing g) ∧ next = .phase (.awaitAnswer n) ∧
        c₁.shared.sent = c.shared.sent ++ [⟨g, t, content⟩] := by
  cases h with
  | send id n h =>
    obtain h | ⟨-, -, -, hnext, -⟩ := h.log
    · exact .inl h
    · cases hnext
  | sent id n h =>
    obtain h | ⟨g, content, rfl, -, h⟩ := h.log
    · exact .inl h
    · exact .inr ⟨id, n, g, content, rfl, rfl, h⟩
  | unsent id n h =>
    obtain h | ⟨-, -, -, hnext, -⟩ := h.log
    · exact .inl h
    · cases hnext
  | _ => exact .inl rfl

/-- A step adds at most one text, to the sink that the task writes to. -/
theorem TaskStep.log (h : TaskStep c t choice task c₁ task') (hd : task.isDiscard = false) :
    c₁.shared.sent = c.shared.sent ∨ ∃ g content, task.writing? = some g ∧
      c₁.shared.sent = c.shared.sent ++ [⟨g, t, content⟩] := by
  cases h with
  | opening f h => cases h <;> exact .inl rfl
  | closing f h =>
    cases h with
    | shaken g tasks => exact .inr ⟨g, _, by cases f <;> rfl, rfl⟩
    | _ => exact .inl rfl
  | calling f h =>
    obtain h | ⟨id, n, g, content, rfl, -, h⟩ := h.log
    · exact .inl h
    · exact .inr ⟨g, content, by cases f <;> rfl, h⟩
  | starting f h => cases h <;> exact .inl rfl
  | disconnecting g h => cases h <;> exact .inl rfl
  | replying g response h =>
    obtain h | ⟨g', content, rfl, -, h⟩ := h.log
    · exact .inl h
    · exact .inr ⟨g', content, rfl, h⟩
  | connect h => cases h <;> exact .inl rfl
  | receive g h => cases h <;> exact .inl rfl
  | heart g h => cases h <;> exact .inl rfl
  | reconnect epoch h => cases h <;> exact .inl rfl
  | discard h => cases hd

theorem TaskStep.cases_sent {e : Sent} (h : TaskStep c t choice task c₁ task')
    (hd : task.isDiscard = false) (he : e ∈ c₁.shared.sent) :
    e ∈ c.shared.sent ∨ (e.writer = t ∧ task.writing? = some e.generation) := by
  obtain h | ⟨g, content, hg, h⟩ := h.log hd
  · exact .inl (h ▸ he)
  · rw [h] at he
    refine (List.mem_append.1 he).imp_right fun he => ?_
    rw [List.mem_singleton.1 he]
    exact ⟨rfl, hg⟩

theorem SendStep.writing {text : String} {p p' : SendPhase}
    (h : SendStep c t text p c₁ (.phase p')) (hp' : p'.writing? = some g) :
    c.shared.outbound.sink = some g := by
  cases h with
  | ask => cases hp'
  | begin held hsink => cases hp'; exact hsink

theorem CallStep.writing {spec : CallSpec} {p p' : CallPhase}
    (h : CallStep c t spec choice p c₁ (.phase p')) (hp' : p'.writing? = some g) :
    c.shared.outbound.sink = some g := by
  cases h with
  | look hp hout => cases p' <;> first | cases hout; done | cases hp'
  | send id n h => exact h.writing hp'
  | _ => cases hp'

theorem CloseStep.writing {p p' : ClosePhase} (h : CloseStep c t p c₁ (.phase p'))
    (hp' : p'.writing? = some g) : c.shared.outbound.sink = some g := by
  cases h with
  | take tasks held =>
    revert hp'
    cases c.shared.outbound.sink with
    | none => exact nofun
    | some g' => exact id
  | _ => cases hp'

@[simp] theorem CallFrame.writing?_next (f : CallFrame) (next : Next CallPhase (Option Outcome)) :
    (f.next next).writing? = next.elim CallPhase.writing? none := by
  fun_cases CallFrame.next f next <;> rfl

theorem TaskStep.writing (h : TaskStep c t choice task c₁ task') (hg : task'.writing? = some g) :
    c.shared.outbound.sink = some g := by
  cases h with
  | @opening f _ _ next h => cases f <;> rcases next with _ | ⟨_ | _⟩ <;> cases hg
  | @closing f _ _ next h =>
    cases next with
    | phase p => exact h.writing (by cases f <;> exact hg)
    | _ => cases f <;> cases hg
  | @calling f _ _ next h =>
    rw [f.writing?_next] at hg
    cases next with
    | phase p => exact h.writing hg
    | _ => cases hg
  | @starting f _ _ next h => cases f <;> cases next <;> cases hg
  | @disconnecting g' _ _ next h => cases next <;> cases hg
  | @replying g' response _ _ next h =>
    cases next with
    | phase p => exact h.writing hg
    | _ => cases hg
  | receive g' h =>
    cases h with
    | handled id result => cases id <;> cases hg
    | _ => cases hg
  | connect h => cases h <;> cases hg
  | heart g' h => cases h <;> cases hg
  | _ => cases hg

inductive LinkStep (c c₁ : Client) : Task → Task → Prop where
  | still {task task' : Task} (installed : c₁.shared.link.installed = c.shared.link.installed)
    (generation : c₁.shared.link.generation = c.shared.link.generation)
    (receiver : c₁.shared.link.receiver = c.shared.link.receiver)
    (sink : ∀ g, c₁.shared.outbound.sink = some g → c.shared.outbound.sink = some g)
    (receivers : ∀ (u : TaskId) g p, c₁.tasks[u]? = some (.receive g p) →
      c.tasks[u]? = some (.receive g p)) : LinkStep c c₁ task task'
  | install (f : OpenFrame) (p : OpenPhase) (current : c.isStale f.epoch = false)
    (installed : c₁.shared.link.installed = some (c.shared.link.generation + 1))
    (generation : c₁.shared.link.generation = c.shared.link.generation + 1)
    (receiver : c₁.shared.link.receiver = some c.tasks.length)
    (sink : c₁.shared.outbound.sink = some (c.shared.link.generation + 1))
    (receivers : ∀ (u : TaskId) g p, c₁.tasks[u]? = some (.receive g p) →
      c.tasks[u]? = some (.receive g p) ∨
        u = c.tasks.length ∧ g = c.shared.link.generation + 1) :
    LinkStep c c₁ (f.next (.phase .lock)) (f.next (.phase p))
  | detach (f : CloseFrame) (installed : c₁.shared.link.installed = none)
    (generation : c₁.shared.link.generation = c.shared.link.generation + 1)
    (sink : c₁.shared.outbound.sink = c.shared.outbound.sink) (tasks : c₁.tasks = c.tasks) :
    LinkStep c c₁ (f.next (.phase .detach)) (f.next (.phase (.publish (Client.detach c.shared).2)))
  | pass {g old : Generation} (hold : c.shared.link.installed = some old)
    (current : c.shared.link.generation = g) (installed : c₁.shared.link.installed = none)
    (generation : c₁.shared.link.generation = c.shared.link.generation)
    (sink : c₁.shared.outbound.sink = c.shared.outbound.sink) (tasks : c₁.tasks = c.tasks) :
    LinkStep c c₁ (.receive g (.disconnecting .detach)) (.receive g (.disconnecting (.signal old)))

theorem LinkStep.alone (link : c₁.shared.link = c.shared.link) (tasks : c₁.tasks = c.tasks)
    (sink : c₁.shared.outbound.sink = c.shared.outbound.sink) : LinkStep c c₁ task task' :=
  .still (by rw [link]) (by rw [link]) (by rw [link]) (fun _ hg => sink ▸ hg)
    fun _ _ _ hu => tasks ▸ hu

theorem SendStep.link {text : String} {p : SendPhase} {next : Next SendPhase (Except Failure Unit)}
    (h : SendStep c t text p c₁ next) : LinkStep c c₁ task task' := by
  cases h with
  | ask => exact .alone rfl rfl (sink_request ..)
  | _ => exact .alone rfl rfl rfl

theorem CallStep.link {spec : CallSpec} {p : CallPhase} {next : Next CallPhase (Option Outcome)}
    (h : CallStep c t spec choice p c₁ next) : LinkStep c c₁ task task' := by
  cases h with
  | send id n h | sent id n h | unsent id n h => exact h.link
  | dropSending id n h dropped => exact .alone rfl rfl (Outbound.sink_leave ..)
  | _ => exact .alone rfl rfl rfl

/-- The receiver of a new link comes first, the heart after it. -/
theorem cases_append_link
    (hu : (c.tasks ++ [.receive g .idle, .heart g .ticking])[u]? = some (.receive g' p)) :
    c.tasks[u]? = some (.receive g' p) ∨ u = c.tasks.length ∧ g' = g := by
  rw [List.getElem?_append] at hu
  split at hu
  · exact .inl hu
  next hge =>
    obtain ⟨i, rfl⟩ := Nat.exists_eq_add_of_le (Nat.le_of_not_lt hge)
    rw [Nat.add_sub_cancel_left] at hu
    match i with
    | 0 =>
      cases hu
      exact .inr ⟨rfl, rfl⟩
    | 1 => cases hu
    | _ + 2 => cases hu

theorem TaskStep.link (h : TaskStep c t choice task c₁ task') (hd : task.isDiscard = false) :
    LinkStep c c₁ task task' := by
  cases h with
  | opening f h =>
    cases h with
    | install held h =>
      exact .install f _ h rfl rfl rfl rfl fun _ _ _ hu => cases_append_link hu
    | ask => exact .alone rfl rfl (sink_request ..)
    | late held => exact .alone rfl rfl (Outbound.sink_leave ..)
    | _ => exact .alone rfl rfl rfl
  | closing f h =>
    cases h with
    | detach => exact .detach f rfl rfl rfl rfl
    | ask tasks => exact .alone rfl rfl (sink_request ..)
    | take tasks held => exact .still rfl rfl rfl nofun fun _ _ _ hu => hu
    | _ => exact .alone rfl rfl rfl
  | calling f h => exact h.link
  | starting f h =>
    cases h with
    | spawn =>
      refine .still rfl rfl rfl (fun _ hg => hg) fun u g p hu => ?_
      obtain hu | hx := cases_spawn hu
      · exact hu
      · cases hx
    | _ => exact .alone rfl rfl rfl
  | disconnecting g h =>
    cases h with
    | detach hold hg => exact .pass hold hg rfl rfl rfl rfl
    | ask closed => exact .alone rfl rfl (sink_request ..)
    | clear closed held =>
      refine .still rfl rfl rfl (fun g' hg' => ?_) fun _ _ _ hu => hu
      simp only [update, Shared.release, Outbound.release] at hg'
      split at hg'
      · cases hg'
      · exact hg'
    | _ => exact .alone rfl rfl rfl
  | replying g response h => exact h.link
  | connect h =>
    cases h with
    | setEndpoint url => exact .still rfl rfl rfl (fun _ hg => hg) fun _ _ _ hu => hu
    | _ => exact .alone rfl rfl rfl
  | receive g h => cases h <;> exact .alone rfl rfl rfl
  | heart g h => cases h <;> exact .alone rfl rfl rfl
  | reconnect epoch h => cases h <;> exact .alone rfl rfl rfl
  | discard h => cases hd

/-- No generation is later than that of the link, and only that one can be installed. -/
structure Numbered (c : Client) : Prop where
  installed : ∀ g, c.shared.link.installed = some g → g = c.shared.link.generation
  receivers : ∀ (u : TaskId) g p, c.tasks[u]? = some (.receive g p) → g ≤ c.shared.link.generation
  sink : ∀ g, c.shared.outbound.sink = some g → g ≤ c.shared.link.generation
  writing : ∀ (u : TaskId) x g, c.tasks[u]? = some x → x.writing? = some g →
    g ≤ c.shared.link.generation
  sent : ∀ e ∈ c.shared.sent, e.generation ≤ c.shared.link.generation

theorem LinkStep.generation_le (h : LinkStep c c₁ task task') :
    c.shared.link.generation ≤ c₁.shared.link.generation := by
  cases h with
  | still installed generation => exact Nat.le_of_eq generation.symm
  | install f p current installed generation => exact generation ▸ Nat.le_succ _
  | detach f installed generation => exact generation ▸ Nat.le_succ _
  | pass hold current installed generation => exact Nat.le_of_eq generation.symm

/-- A receiver that is new is that of a new link. -/
theorem LinkStep.cases_receiver (h : LinkStep c c₁ task task')
    (hu : c₁.tasks[u]? = some (.receive g p)) :
    c.tasks[u]? = some (.receive g p) ∨ g = c₁.shared.link.generation := by
  cases h with
  | still installed generation receiver sink receivers => exact .inl (receivers u g p hu)
  | install f p current installed generation receiver sink receivers =>
    exact (receivers u g _ hu).imp_right fun h => h.2.trans generation.symm
  | detach f installed generation sink tasks => exact .inl (tasks ▸ hu)
  | pass hold current installed generation sink tasks => exact .inl (tasks ▸ hu)

/-- The steps of a receiver do not change its generation. -/
theorem exists_receive_of_kind (h : x.kind = .receive g) : ∃ p, x = .receive g p := by
  cases x with
  | receive g' p =>
    cases h
    exact ⟨p, rfl⟩
  | _ => cases h

theorem LinkStep.cases_sink (h : LinkStep c c₁ task task') (hg : c₁.shared.outbound.sink = some g) :
    c.shared.outbound.sink = some g ∨ g = c₁.shared.link.generation := by
  cases h with
  | still installed generation receiver sink => exact .inl (sink g hg)
  | install f p current installed generation receiver sink =>
    exact .inr (Option.some.inj (hg.symm.trans (sink.trans (congrArg some generation.symm))))
  | detach f installed generation sink => exact .inl (sink ▸ hg)
  | pass hold current installed generation sink => exact .inl (sink ▸ hg)

theorem LinkStep.cases_installed (h : LinkStep c c₁ task task')
    (hg : c₁.shared.link.installed = some g) :
    (c.shared.link.installed = some g ∧ c₁.shared.link.generation = c.shared.link.generation) ∨
      g = c₁.shared.link.generation := by
  cases h with
  | still installed generation => exact .inl ⟨installed ▸ hg, generation⟩
  | install f p current installed generation =>
    exact .inr (Option.some.inj (hg.symm.trans (installed.trans (congrArg some generation.symm))))
  | detach f installed => cases installed.symm.trans hg
  | pass hold current installed => cases installed.symm.trans hg

theorem writing?_of_isNew (h : x.isNew = true) : x.writing? = none := by
  unfold Task.isNew at h
  split at h <;> first | rfl | cases h

theorem Numbered.step (h : c.Numbered) (hstep : TaskStep c t choice task c₁ task')
    (ht : c.tasks[t]? = some task) (hd : task.isDiscard = false) :
    Numbered ⟨c₁.shared, c₁.tasks.set t task'⟩ := by
  have hlink := hstep.link hd
  have hle := hlink.generation_le
  refine ⟨fun g hg => ?_, fun u g p hu => ?_, fun g hg => ?_, fun u x g hu hg => ?_,
    fun e he => ?_⟩
  · obtain ⟨hg, hsame⟩ | rfl := hlink.cases_installed hg
    · exact (h.installed g hg).trans hsame.symm
    · rfl
  · obtain ⟨rfl, rfl⟩ | ⟨-, hu⟩ := cases_set hu
    · obtain ⟨q, rfl⟩ := exists_receive_of_kind hstep.kind.symm
      exact Nat.le_trans (h.receivers u g q ht) hle
    · obtain hu | rfl := hlink.cases_receiver hu
      · exact Nat.le_trans (h.receivers u g p hu) hle
      · exact Nat.le_refl _
  · obtain hg | rfl := hlink.cases_sink hg
    · exact Nat.le_trans (h.sink g hg) hle
    · exact Nat.le_refl _
  · obtain ⟨rfl, rfl⟩ | ⟨-, hu⟩ | ⟨-, -, hnew⟩ := (hstep.grows hd).cases_task hu
    · exact Nat.le_trans (h.sink g (hstep.writing hg)) hle
    · exact Nat.le_trans (h.writing u x g hu hg) hle
    · cases (writing?_of_isNew hnew.1).symm.trans hg
  · obtain he | ⟨-, hwriting⟩ := hstep.cases_sent hd he
    · exact Nat.le_trans (h.sent e he) hle
    · exact Nat.le_trans (h.writing t task _ ht hwriting) hle

theorem Reachable.numbered (run : Reachable config c) (hkept : c.IsKept) : c.Numbered := by
  induction run with
  | fresh =>
    exact ⟨nofun, fun u g p hu => (by cases hu), nofun, fun u x g hu => (by cases hu), nofun⟩
  | @move c c' m before h ih =>
    have hnumbered := ih (hkept.before h)
    cases apply_cases h with
    | start request =>
      refine ⟨hnumbered.installed, fun u g p hu => ?_, hnumbered.sink, fun u x g hu hg => ?_,
        hnumbered.sent⟩
      · obtain hu | hx := cases_spawn hu
        · exact hnumbered.receivers u g p hu
        · cases request <;> cases hx
      · obtain hu | rfl := cases_spawn hu
        · exact hnumbered.writing u x g hu hg
        · cases request <;> cases hg
    | register method handler registry | cancel token =>
      exact ⟨hnumbered.installed, hnumbered.receivers, hnumbered.sink, hnumbered.writing,
        hnumbered.sent⟩
    | step ht hstep => exact hnumbered.step hstep ht ((hkept.before h).not_discard ht)

end DuplexRpc.Client
