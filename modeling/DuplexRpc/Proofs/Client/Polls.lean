import DuplexRpc.Proofs.Client.CallIds
import DuplexRpc.Proofs.Client.Turns

/-!
Polls of a call whose signal has been cancelled. Where it waits for the link or for its answer, the
next poll ends it and takes its entry out of the table. Where it sends its request it does not look
at the signal: it waits on for the outbound lock, or for the end of the write.
-/
namespace DuplexRpc.Client

variable {config : Config} {c c' c₁ c₀ : Client} {t : TaskId} {spec : CallSpec} {choice : Choice}
  {choices : List Choice} {p p' p₀ : CallPhase} {next : Next CallPhase (Option Outcome)} {n : Nat}

/-- One poll of a task: it goes on, and nobody drops it, until nothing has come of what it waits
for. -/
structure Polls (c : Client) (t : TaskId) (choices : List Choice) (c' : Client) : Prop where
  undropped : .dropped ∉ choices
  taken : c.steps t choices = some c'
  pending : ∀ choice, choice = .run ∨ choice = .settled ∨ choice = .cancelled →
    c'.step t choice = none

/-- What a call can end with, besides being cancelled, when it is polled where it waits: what has
come, or the failure of its timer, if that has run out. -/
inductive HasCome (c : Client) (spec : CallSpec) (choices : List Choice) :
    CallPhase → Outcome → Prop where
  | closed (h : c.shared.status = .closed) :
    HasCome c spec choices .awaitOpen (.error .clientClosed)
  | unopened (h : .elapsed ∈ choices) :
    HasCome c spec choices .awaitOpen (.error .connectionClosed)
  | answered {n : Nat} {outcome : Outcome}
    (h : c.shared.pending.slot? n = some (.answered outcome)) :
    HasCome c spec choices (.awaitAnswer n) outcome
  | forgotten {n : Nat} (h : c.shared.pending.slot? n = some .closed) :
    HasCome c spec choices (.awaitAnswer n) (.error .connectionClosed)
  | late (n : Nat) (h : .elapsed ∈ choices) :
    HasCome c spec choices (.awaitAnswer n) (.error (.timeout (spec.deadline c.shared.config)))

theorem callStep_awaitOpen (h : c.callStep t spec choice .awaitOpen = some (c₁, next))
    (hchoice : choice ≠ .dropped) (hstatus : c.shared.status ≠ .opened) :
    c₁ = c ∧ ∃ outcome, next = .over (some outcome) ∧
      (outcome = .error .cancelled ∨ HasCome c spec [choice] .awaitOpen outcome) := by
  cases choice with
  | settled =>
    obtain ⟨next, hadmission, heq⟩ := Option.map_eq_some_iff.1 h
    cases heq
    obtain ⟨hopened, -⟩ | ⟨hclosed, rfl⟩ := admission_eq_some_iff.1 hadmission
    · exact absurd hopened hstatus
    · exact ⟨rfl, _, rfl, .inr (.closed hclosed)⟩
  | elapsed =>
    simp only [callStep] at h
    split at h <;> cases h
    exact ⟨rfl, _, rfl, .inr (.unopened List.mem_cons_self)⟩
  | cancelled =>
    simp only [callStep] at h
    split at h <;> cases h
    exact ⟨rfl, _, rfl, .inl rfl⟩
  | dropped => exact absurd rfl hchoice
  | _ => cases h

theorem callStep_awaitAnswer (h : c.callStep t spec choice (.awaitAnswer n) = some (c₁, next))
    (hchoice : choice ≠ .dropped) :
    c₁ = c ∧ ∃ outcome, next = .phase (.leaving n (some outcome)) ∧
      (outcome = .error .cancelled ∨ HasCome c spec [choice] (.awaitAnswer n) outcome) := by
  cases choice with
  | settled =>
    simp only [callStep] at h
    split at h <;> cases h
    next hslot => exact ⟨rfl, _, rfl, .inr (.answered hslot)⟩
    next hslot => exact ⟨rfl, _, rfl, .inr (.forgotten hslot)⟩
  | elapsed =>
    simp only [callStep] at h
    split at h <;> cases h
    exact ⟨rfl, _, rfl, .inr (.late n List.mem_cons_self)⟩
  | cancelled =>
    simp only [callStep] at h
    split at h <;> cases h
    exact ⟨rfl, _, rfl, .inl rfl⟩
  | dropped => exact absurd rfl hchoice
  | _ => cases h

/-- The user has dropped the call. -/
def isDropped : CallPhase → Bool
  | .leaving _ none | .done none => true
  | _ => false

/-- A call at a phase, set against an earlier moment: the table has no new entry but its own, and
its own of then only as long as it has not left. -/
structure Polled (s₀ : Shared) (p₀ : CallPhase) (s : Shared) (p : CallPhase) : Prop where
  sound : s.pending.Sound
  cancelled : s₀.cancelled ⊆ s.cancelled
  entries : ∀ id k, s.pending.find? id = some k →
    (s₀.pending.find? id = some k ∧ p₀.stand ≠ .holds k) ∨ p.stand = .holds k
  meant : isDropped p = false

/-- Whoever leaves takes its own entry along and adds none. -/
theorem find?_leave {table : PendingTable} (hs : table.Sound) {id : String} {k : Nat}
    (h : (table.leave n).find? id = some k) : table.find? id = some k ∧ k ≠ n := by
  refine ⟨?_, ?_⟩
  · have hstep : ((table.dropReceiver n).step (.dropGuard n)).1.find? id = some k := h
    obtain hfind | hadds := PendingTable.find?_of_step hstep
    · exact hfind
    · cases hadds.1
  · rintro rfl
    obtain ⟨r, hr, -, hguarded, -⟩ := (hs.leave k).openAs h
    have hface : (table.leave k).face? k = some (r.id, true) := by
      simp [PendingTable.face?, hr, hguarded]
    rw [PendingTable.leave, PendingTable.face?_dropGuard, if_pos rfl] at hface
    obtain ⟨f, -, heq⟩ := Option.map_eq_some_iff.1 hface
    exact Bool.noConfusion (Prod.mk.inj heq).2

theorem Polled.step {s₀ : Shared} (h : Polled s₀ p₀ c.shared p) (hchoice : choice ≠ .dropped)
    (hcall : c.callStep t spec choice p = some (c₁, next)) : Polled s₀ p₀ c₁.shared next.after := by
  -- a step that leaves the table alone and keeps the stand
  have stays {s : Shared} {p' : CallPhase} (hpending : s.pending = c.shared.pending)
      (hcancelled : s.cancelled = c.shared.cancelled)
      (hstand : ∀ k, p.stand = .holds k → p'.stand = .holds k)
      (hmeant : isDropped p' = false) : Polled s₀ p₀ s p' :=
    ⟨hpending ▸ h.sound, hcancelled ▸ h.cancelled,
      fun id k hfind => (h.entries id k (hpending ▸ hfind)).imp_right (hstand k), hmeant⟩
  have outside {p' : CallPhase} (hp : p.isOutside = true) (k) (hk : p.stand = .holds k) :
      p'.stand = .holds k := by
    rw [stand_of_isOutside hp] at hk
    cases hk
  have sends {text : String} {q : SendPhase} {next : Next SendPhase (Except Failure Unit)}
      {p' : CallPhase} (hsend : SendStep c t text q c₁ next)
      (hstand : ∀ k, p.stand = .holds k → p'.stand = .holds k)
      (hmeant : isDropped p' = false) : Polled s₀ p₀ c₁.shared p' := by
    cases hsend <;> exact stays rfl rfl hstand hmeant
  cases callStep_cases hcall with
  | @look _ p' hp hp' =>
    refine stays rfl rfl (outside hp) ?_
    cases p' <;> first | rfl | cases hp'
  | @turnedAway _ outcome hp hdropped =>
    refine stays rfl rfl (outside hp) ?_
    cases outcome with
    | none => exact absurd (hdropped rfl) hchoice
    | some outcome => rfl
  | enter hp => exact stays rfl rfl (outside hp) rfl
  | allocate => exact stays rfl rfl (fun k hk => by cases hk) rfl
  | @register id k pending hr =>
    refine ⟨h.sound.register hr, h.cancelled, fun id' k' hfind => ?_, rfl⟩
    simp only [update, PendingTable.find?_register hr] at hfind
    split at hfind
    · cases hfind
      exact .inr rfl
    · exact .inl ((h.entries id' k' hfind).resolve_right fun hk => by cases hk)
  | refuse id failure => exact stays rfl rfl (fun k hk => by cases hk) rfl
  | send id n hsend | sent id n hsend | unsent id n hsend =>
    exact sends hsend (fun _ hk => hk) rfl
  | dropSending id n hp dropped | dropWaiting n dropped => exact absurd dropped hchoice
  | answered | forgotten | late n | cancelled n =>
    exact stays rfl rfl (fun _ hk => hk) rfl
  | leave k outcome =>
    refine ⟨h.sound.leave k, h.cancelled, fun id' k' hfind => ?_, ?_⟩
    · obtain ⟨hfind, hne⟩ := find?_leave h.sound hfind
      refine .inl ((h.entries id' k' hfind).resolve_right fun hk => hne ?_)
      cases hk
      rfl
    · cases outcome with
      | none => cases h.meant
      | some outcome => rfl

theorem Polled.steps {s₀ : Shared} (h : Polled s₀ p₀ c.shared p)
    (ht : c.tasks[t]? = some (.call spec p)) (hchoices : .dropped ∉ choices)
    (hsteps : c.steps t choices = some c') :
    ∃ p', c'.tasks[t]? = some (.call spec p') ∧ Polled s₀ p₀ c'.shared p' := by
  induction choices generalizing c p with
  | nil =>
    cases hsteps
    exact ⟨p, ht, h⟩
  | cons choice choices ih =>
    obtain ⟨hchoice, hrest⟩ := not_or.1 (mt List.mem_cons.2 hchoices)
    obtain ⟨c₁, h₁, hsteps⟩ := Option.bind_eq_some_iff.1 hsteps
    obtain ⟨c₂, next, hcall, rfl⟩ := (step_call ht).1 h₁
    have hset : (c₂.tasks.set t (.call spec next.after))[t]? = some (.call spec next.after) := by
      rw [(callStep_cases hcall).tasks]
      exact List.getElem?_set_self (List.getElem?_eq_some_iff.1 ht).1
    have hpolled := h.step (Ne.symm hchoice) hcall
    exact ih (c := ⟨c₂.shared, c₂.tasks.set t (.call spec next.after)⟩) hpolled hset hrest hsteps

theorem callStep_eq_none (ht : c.tasks[t]? = some (.call spec p)) (h : c.step t choice = none) :
    c.callStep t spec choice p = none := by
  cases hcall : c.callStep t spec choice p with
  | none => rfl
  | some r =>
    have hstep : c.step t choice = some _ := (step_call ht).2 ⟨r.1, r.2, hcall, rfl⟩
    cases h.symm.trans hstep

/-- A call that is cancelled is over at the end of a poll, or it stands in the sending. -/
theorem Polls.done_or_sending (h : c.Polls t choices c')
    (ht : c'.tasks[t]? = some (.call spec p)) (hcancelled : c'.signalled spec = true) :
    (∃ outcome, p = .done outcome) ∨ ∃ id n q, p = .sending id n q := by
  have hrun := callStep_eq_none ht (h.pending .run (.inl rfl))
  have hsignal := callStep_eq_none ht (h.pending .cancelled (.inr (.inr rfl)))
  cases p with
  | done outcome => exact .inl ⟨outcome, rfl⟩
  | sending id n q => exact .inr ⟨id, n, q, rfl⟩
  | start | checkSignal =>
    simp only [callStep] at hrun
    split at hrun <;> cases hrun
  | readStatus | allocate | leaving => cases hrun
  | awaitOpen | awaitAnswer n => simp [callStep, hcancelled] at hsignal
  | register id =>
    simp only [callStep] at hrun
    split at hrun <;> cases hrun

/-- While the lock or the end of the write is awaited, a cancelled signal makes no difference. -/
theorem step_sending_waits {id : String} {q : SendPhase}
    (ht : c.tasks[t]? = some (.call spec (.sending id n q))) (hwaits : c.waits t = true)
    (h : c.step t choice = some c') : choice = .dropped ∨ ∃ report, choice = .written report := by
  obtain ⟨c₁, next, hcall, -⟩ := (step_call ht).1 h
  have hq : SendPhase.waits (c.holds t) q = true := by
    simpa [waits, ht, CallPhase.waits] using hwaits
  cases choice with
  | dropped => exact .inl rfl
  | written report => exact .inr ⟨report, rfl⟩
  | _ =>
    obtain ⟨r, hsend, -⟩ := Option.map_eq_some_iff.1 hcall
    cases q <;> simp_all [sendStep, SendPhase.waits]

theorem polls_of_sending {id : String} {q : SendPhase}
    (ht : c.tasks[t]? = some (.call spec (.sending id n q))) (hwaits : c.waits t = true) :
    c.Polls t [] c := by
  refine ⟨by simp, rfl, fun choice hchoice => ?_⟩
  cases h : c.step t choice with
  | none => rfl
  | some c' =>
    obtain rfl | ⟨report, rfl⟩ := step_sending_waits ht hwaits h
    · simp at hchoice
    · simp at hchoice

/-- A call that knows its outcome keeps it. -/
theorem steps_of_outcome {outcome : Option Outcome} (ht : c.tasks[t]? = some (.call spec p))
    (hp : p = .leaving n outcome ∨ p = .done outcome) (h : c.steps t choices = some c') :
    ∃ p', c'.tasks[t]? = some (.call spec p') ∧ (p' = .leaving n outcome ∨ p' = .done outcome) := by
  induction choices generalizing c p with
  | nil =>
    cases h
    exact ⟨p, ht, hp⟩
  | cons choice choices ih =>
    obtain ⟨c₁, h₁, h⟩ := Option.bind_eq_some_iff.1 h
    obtain ⟨c₂, next, hcall, rfl⟩ := (step_call ht).1 h₁
    obtain rfl | rfl := hp
    · have hset : (c₂.tasks.set t (.call spec next.after))[t]? = some (.call spec next.after) := by
        rw [(callStep_cases hcall).tasks]
        exact List.getElem?_set_self (List.getElem?_eq_some_iff.1 ht).1
      cases callStep_cases hcall with
      | look hp | turnedAway hp | enter hp => cases hp
      | leave => exact ih hset (.inr rfl) h
    · cases hcall

theorem HasCome.mono {choices' : List Choice} {outcome : Outcome}
    (h : HasCome c spec choices p outcome) (hsub : choices ⊆ choices') :
    HasCome c spec choices' p outcome := by
  cases h with
  | closed h => exact .closed h
  | unopened h => exact .unopened (hsub h)
  | answered h => exact .answered h
  | forgotten h => exact .forgotten h
  | late n h => exact .late n (hsub h)

/-- The call is over with an outcome, and it has left no entry: all that stand in the table did so
before, and were not its own. -/
structure EndsCall (c : Client) (t : TaskId) (spec : CallSpec) (p : CallPhase) (c' : Client)
    (outcome : Outcome) : Prop where
  ended : c'.tasks[t]? = some (.call spec (.done (some outcome)))
  cleared : ∀ id n, c'.shared.pending.find? id = some n →
    c.shared.pending.find? id = some n ∧ p.stand ≠ .holds n

/-- The call waits for its answer, or for a link that is not open. -/
def WatchesSignal (c : Client) (p : CallPhase) : Prop :=
  (∃ n, p = .awaitAnswer n) ∨ p = .awaitOpen ∧ c.shared.status ≠ .opened

/-- Where a call watches its signal it learns its outcome with its next step. -/
theorem WatchesSignal.steps (h : c.WatchesSignal p) (ht : c.tasks[t]? = some (.call spec p))
    (hchoices : .dropped ∉ choices) (hsteps : c.steps t choices = some c') :
    (choices = [] ∧ c' = c) ∨ ∃ n outcome p', c'.tasks[t]? = some (.call spec p') ∧
      (p' = .leaving n (some outcome) ∨ p' = .done (some outcome)) ∧
      (outcome = .error .cancelled ∨ HasCome c spec choices p outcome) := by
  cases choices with
  | nil =>
    cases hsteps
    exact .inl ⟨rfl, rfl⟩
  | cons choice choices =>
    have hchoice := (not_or.1 (mt List.mem_cons.2 hchoices)).1
    obtain ⟨c₁, h₁, hsteps⟩ := Option.bind_eq_some_iff.1 hsteps
    obtain ⟨c₂, next, hcall, rfl⟩ := (step_call ht).1 h₁
    have hset : (c₂.tasks.set t (.call spec next.after))[t]? = some (.call spec next.after) := by
      rw [(callStep_cases hcall).tasks]
      exact List.getElem?_set_self (List.getElem?_eq_some_iff.1 ht).1
    have hsub : [choice] ⊆ choice :: choices := by simp
    right
    obtain ⟨n, rfl⟩ | ⟨rfl, hstatus⟩ := h
    · obtain ⟨rfl, outcome, rfl, hcome⟩ := callStep_awaitAnswer hcall (Ne.symm hchoice)
      obtain ⟨p', ht', hp'⟩ := steps_of_outcome hset (.inl rfl) hsteps
      exact ⟨n, outcome, p', ht', hp', hcome.imp_right (·.mono hsub)⟩
    · obtain ⟨rfl, outcome, rfl, hcome⟩ := callStep_awaitOpen hcall (Ne.symm hchoice) hstatus
      obtain ⟨p', ht', hp'⟩ := steps_of_outcome (n := 0) hset (.inr rfl) hsteps
      exact ⟨0, outcome, p', ht', hp', hcome.imp_right (·.mono hsub)⟩

theorem suspended_cases (ht : c.tasks[t]? = some (.call spec p)) (hwaits : c.waits t = true)
    (hdone : ∀ outcome, p ≠ .done outcome) :
    p = .awaitOpen ∨ (∃ n, p = .awaitAnswer n) ∨ ∃ id n q, p = .sending id n q := by
  cases p with
  | awaitOpen => exact .inl rfl
  | awaitAnswer n => exact .inr (.inl ⟨n, rfl⟩)
  | sending id n q => exact .inr (.inr ⟨id, n, q, rfl⟩)
  | done outcome => exact absurd rfl (hdone outcome)
  | _ => simp [waits, ht, CallPhase.waits] at hwaits

/-- A poll in which the call sees that it is cancelled. -/
theorem exists_polls_of_watching (ht : c.tasks[t]? = some (.call spec p))
    (hp : p = .awaitOpen ∨ ∃ n, p = .awaitAnswer n) (hcancelled : c.signalled spec = true) :
    ∃ choices c', c.Polls t choices c' := by
  have stops {c' : Client} {outcome} (ht' : c'.tasks[t]? = some (.call spec (.done outcome)))
      (choice) : c'.step t choice = none := by
    rw [step, ht']
    rfl
  obtain rfl | ⟨n, rfl⟩ := hp
  · have hstep : c.taskStep t .cancelled (.call spec .awaitOpen) =
        some (c, .call spec (.done (some (.error .cancelled)))) := by
      simp [taskStep, callStep, hcancelled]
    obtain ⟨c', h, ht', -⟩ := exists_step_of_taskStep ht hstep
    exact ⟨[.cancelled], c', by simp, by simp [steps, h], fun choice _ => stops ht' choice⟩
  · have hstep : c.taskStep t .cancelled (.call spec (.awaitAnswer n)) =
        some (c, .call spec (.leaving n (some (.error .cancelled)))) := by
      simp [taskStep, callStep, hcancelled]
    obtain ⟨c₁, h₁, ht₁, -⟩ := exists_step_of_taskStep ht hstep
    have hleave : c₁.taskStep t .run (.call spec (.leaving n (some (.error .cancelled)))) =
        some (c₁.leave n, .call spec (.done (some (.error .cancelled)))) := rfl
    obtain ⟨c', h, ht', -⟩ := exists_step_of_taskStep ht₁ hleave
    exact ⟨[.cancelled, .run], c', by simp, by simp [steps, h₁, h],
      fun choice _ => stops ht' choice⟩

/-- Cancelling a call that waits for its answer, or for a link that is not open, ends it with its
next poll: it is cancelled or gets what has come by then, and its entry is gone. A poll can leave a
cancelled call unfinished only in the sending, if the call stood there or found the link open; and
there neither the lock nor the write is given up, whatever the signal. -/
theorem cancellation_ends_calls_but_senders (run : Reachable config c)
    (ht : c.tasks[t]? = some (.call spec p)) (hwaits : c.waits t = true)
    (hdone : ∀ outcome, p ≠ .done outcome) (hcancelled : c.signalled spec = true) :
    (∃ choices c', c.Polls t choices c') ∧
    (∀ choices c', c.Polls t choices c' →
      (∃ outcome, c.EndsCall t spec p c' outcome ∧ (c.WatchesSignal p →
        outcome = .error .cancelled ∨ HasCome c spec choices p outcome)) ∨
      ((∃ id n q, p = .sending id n q) ∨ p = .awaitOpen ∧ c.shared.status = .opened) ∧
        ∃ id n q, c'.tasks[t]? = some (.call spec (.sending id n q))) ∧
    ∀ id n q, p = .sending id n q → c.Polls t [] c ∧ ∀ choice c', c.step t choice = some c' →
      choice = .dropped ∨ ∃ report, choice = .written report := by
  have hsending {id n q} (hp : p = .sending id n q) : c.Polls t [] c ∧
      ∀ choice c', c.step t choice = some c' →
        choice = .dropped ∨ ∃ report, choice = .written report := by
    subst hp
    exact ⟨polls_of_sending ht hwaits, fun choice c' h => step_sending_waits ht hwaits h⟩
  have hcases := suspended_cases ht hwaits hdone
  refine ⟨?_, fun choices c' hpolls => ?_, fun id n q hp => hsending hp⟩
  · obtain hp | hp | ⟨id, n, q, hp⟩ := hcases
    · exact exists_polls_of_watching ht (.inl hp) hcancelled
    · exact exists_polls_of_watching ht (.inr hp) hcancelled
    · exact ⟨[], c, (hsending hp).1⟩
  have hstart : Polled c.shared p c.shared p := by
    refine ⟨run.sound_listed.1, List.Subset.refl _, fun id k hfind => ?_, ?_⟩
    · by_cases hk : p.stand = .holds k
      · exact .inr hk
      · exact .inl ⟨hfind, hk⟩
    · obtain rfl | ⟨n, rfl⟩ | ⟨id, n, q, rfl⟩ := hcases <;> rfl
  obtain ⟨p', ht', hpolled⟩ := hstart.steps ht hpolls.undropped hpolls.taken
  have hcancelled' := signalled_of_subset hpolled.cancelled hcancelled
  -- where the call has watched its signal it is not in the sending now, and has what has come
  have hwatched (hwatches : c.WatchesSignal p) : ∃ n outcome,
      (p' = .leaving n (some outcome) ∨ p' = .done (some outcome)) ∧
        (outcome = .error .cancelled ∨ HasCome c spec choices p outcome) := by
    obtain ⟨rfl, rfl⟩ | ⟨n, outcome, p'', ht'', hp', hcome⟩ :=
      hwatches.steps ht hpolls.undropped hpolls.taken
    · cases ht.symm.trans ht'
      obtain ⟨outcome, rfl⟩ | ⟨id, n, q, rfl⟩ := hpolls.done_or_sending ht hcancelled
      · exact absurd rfl (hdone outcome)
      · simp [WatchesSignal] at hwatches
    · cases ht'.symm.trans ht''
      exact ⟨n, outcome, hp', hcome⟩
  obtain ⟨outcome, rfl⟩ | ⟨id, n, q, rfl⟩ := hpolls.done_or_sending ht' hcancelled'
  · left
    cases outcome with
    | none => cases hpolled.meant
    | some outcome =>
      refine ⟨outcome, ⟨ht', fun id n hfind => ?_⟩, fun hwatches => ?_⟩
      · exact (hpolled.entries id n hfind).resolve_right fun hk => by cases hk
      · obtain ⟨n, outcome', hp' | hp', hcome⟩ := hwatched hwatches <;> cases hp'
        exact hcome
  · refine .inr ⟨?_, id, n, q, ht'⟩
    have hunwatched : ¬c.WatchesSignal p := fun hwatches => by
      obtain ⟨n, outcome', hp' | hp', -⟩ := hwatched hwatches <;> cases hp'
    obtain rfl | ⟨n, rfl⟩ | hp := hcases
    · exact .inr ⟨rfl, not_not.1 fun hstatus => hunwatched (.inr ⟨rfl, hstatus⟩)⟩
    · exact absurd (.inl ⟨n, rfl⟩) hunwatched
    · exact .inl hp

/-- A call with a signal, as the task with this number, that is in its write. -/
def writing (t : TaskId) : List Move :=
  .start (.call ⟨"m", .null, none, some (.token 0)⟩) :: List.replicate 7 (.step t .run)

/-- A call waits for its answer when it is cancelled. -/
theorem cancellation_ends_calls_but_senders_waiting : ∃ c spec n,
    Reachable .standard c ∧ c.tasks[3]? = some (.call spec (.awaitAnswer n)) ∧
    c.signalled spec = true ∧ (∃ choices c', c.Polls 3 choices c') ∧
    ∀ choices c', c.Polls 3 choices c' → ∃ outcome,
      c.EndsCall 3 spec (.awaitAnswer n) c' outcome ∧
        (outcome = .error .cancelled ∨ HasCome c spec choices (.awaitAnswer n) outcome) := by
  have hrun : ((fresh .standard).follow
      (connecting 0 ++ writing 3 ++ [.step 3 (.written none), .cancel 0])).any (fun c =>
      c.call? 3 = some (⟨"m", .null, none, some (.token 0)⟩, .awaitAnswer 0) ∧ c.waits 3 = true ∧
      c.shared.isCancelled (.token 0) = true) = true := by
    decide +kernel
  obtain ⟨c, hc, hfacts⟩ := Option.any_eq_true _ _ |>.1 hrun
  obtain ⟨hcall, hwaits, hcancelled⟩ := of_decide_eq_true hfacts
  have run : Reachable .standard c := reachable_iff_follow.2 ⟨_, hc⟩
  have ht := getElem?_of_call? hcall
  have hsignalled : c.signalled ⟨"m", .null, none, some (.token 0)⟩ = true := hcancelled
  obtain ⟨hexists, hends, -⟩ :=
    cancellation_ends_calls_but_senders run ht hwaits (by simp) hsignalled
  refine ⟨c, _, 0, run, ht, hsignalled, hexists, fun choices c' hpolls => ?_⟩
  obtain ⟨outcome, hover, hcome⟩ | ⟨hfrom, -⟩ := hends choices c' hpolls
  · exact ⟨outcome, hover, hcome (.inl ⟨0, rfl⟩)⟩
  · simp at hfrom

/-- Two calls are cancelled, one in its write, and one that waits for the outbound lock. A poll
leaves both where they are, with their entries. -/
theorem cancelled_senders_wait_on : ∃ turn c spec, Cooperative .standard turn c ∧
    c.signalled spec = true ∧
    c.tasks[3]? = some (.call spec (.sending "c1" 0 (.writing 2))) ∧ c.waits 3 = true ∧
    c.Polls 3 [] c ∧ c.shared.pending.find? "c1" = some 0 ∧
    c.tasks[4]? = some (.call spec (.sending "c2" 1 .lock)) ∧ c.waits 4 = true ∧
    c.Polls 4 [] c ∧ c.shared.pending.find? "c2" = some 1 := by
  have hrun : ((fresh .standard).run none
      (connecting 0 ++ writing 3 ++ (writing 4).dropLast ++ [.cancel 0])).any (fun r =>
      r.2.call? 3 = some (⟨"m", .null, none, some (.token 0)⟩, .sending "c1" 0 (.writing 2)) ∧
      r.2.call? 4 = some (⟨"m", .null, none, some (.token 0)⟩, .sending "c2" 1 .lock) ∧
      r.2.waits 3 = true ∧ r.2.waits 4 = true ∧ r.2.shared.isCancelled (.token 0) = true ∧
      r.2.shared.pending.find? "c1" = some 0 ∧ r.2.shared.pending.find? "c2" = some 1) = true := by
    decide +kernel
  obtain ⟨⟨turn, c⟩, hc, hfacts⟩ := Option.any_eq_true _ _ |>.1 hrun
  obtain ⟨hone, htwo, hwaits, hwaits', hcancelled, hentry, hentry'⟩ := of_decide_eq_true hfacts
  have ht := getElem?_of_call? hone
  have ht' := getElem?_of_call? htwo
  have hsignalled : c.signalled ⟨"m", .null, none, some (.token 0)⟩ = true := hcancelled
  exact ⟨turn, c, _, .continues .fresh (continues_run hc), hsignalled, ht, hwaits,
    polls_of_sending ht hwaits, hentry, ht', hwaits', polls_of_sending ht' hwaits', hentry'⟩

end DuplexRpc.Client
