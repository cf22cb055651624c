import DuplexRpc.Proofs.Client.Lifecycle
import DuplexRpc.Proofs.Client.Reopening

/-!
After a close. A link is installed only under the current epoch and only while the client is not
closed, so nothing that a close has overtaken installs one. What has been installed or taken out
before it may still be published after it, though, unless the tasks switch at their waits only.
-/
namespace DuplexRpc

namespace Lifecycle

/-- The client is closed and has no link. -/
structure IsShut (l : Lifecycle) : Prop where
  closed : l.closed = true
  installed : l.installed = none
  sink : l.sink = none

/-- There is no link, or it has been opened under the epoch. -/
def IsCurrent (l : Lifecycle) : Prop := l.installed = none ∨ l.openedUnder = l.epoch

variable {l l' : Lifecycle} {r r' : Role}

theorem Step.stays_closed (h : l.Step r r' l') (hr : r ≠ .connecting) (hclosed : l.closed = true) :
    l'.closed = true ∧ (l.installed = none → l'.installed = none) ∧
      (l.sink = none → l'.sink = none) := by
  cases h with
  | unclose | connect epoch => exact absurd rfl hr
  | install p hopen => cases hopen.symm.trans hclosed
  | mark => exact ⟨rfl, id, id⟩
  | detach d | lose old hold => exact ⟨hclosed, fun _ => rfl, id⟩
  | vacate => exact ⟨hclosed, id, fun _ => rfl⟩
  | _ => exact ⟨hclosed, id, id⟩

theorem Step.stays_reported (h : l.Step r r' l') (hr : r ≠ .connecting)
    (hpublishing : r.isPublishing = false) (hstatus : l.status = .closed) :
    l'.status = .closed := by
  cases h with
  | close d => rfl
  | connect epoch => exact absurd rfl hr
  | opened epoch | lost g => cases hpublishing
  | _ => exact hstatus

/-- A link stays current, or a close has raised the epoch and takes it out next. -/
theorem Step.current (h : l.Step r r' l') :
    l'.IsCurrent ∨ r' = .closing .detach ∨
      (r ≠ .closing .detach ∧ (l.IsCurrent → l'.IsCurrent)) := by
  cases h with
  | still hdetach | vacate hdetach => exact .inr (.inr ⟨hdetach, id⟩)
  | bump => exact .inr (.inl rfl)
  | detach d | lose old hold => exact .inl (.inl rfl)
  | install p hclosed => exact .inl (.inr rfl)
  | _ => exact .inr (.inr ⟨nofun, id⟩)

end Lifecycle

/-- What a close has done to the link when it stands at a phase, or is over. -/
def ClosePhase.HasShut (l : Lifecycle) : Option ClosePhase → Prop
  | some .mark => True
  | some .bump | some .detach => l.closed = true
  | some (.publish _) | some (.signal _) | some (.request _) | some (.lock _) =>
    l.closed = true ∧ l.installed = none
  | _ => l.IsShut

/-- What one close has done stays so while others step. -/
theorem ClosePhase.HasShut.step {l l' : Lifecycle} {r r' : Role} {p : Option ClosePhase}
    (h : HasShut l p) (hstep : l.Step r r' l') (hr : r ≠ .connecting) : HasShut l' p := by
  have hshut (h : l.IsShut) : l'.IsShut := by
    obtain ⟨hclosed, hinstalled, hsink⟩ := hstep.stays_closed hr h.closed
    exact ⟨hclosed, hinstalled h.installed, hsink h.sink⟩
  cases p with
  | none => exact hshut h
  | some p =>
    cases p with
    | mark => trivial
    | bump | detach => exact (hstep.stays_closed hr h).1
    | publish d | signal d | request tasks | lock tasks =>
      obtain ⟨hclosed, hinstalled, -⟩ := hstep.stays_closed hr h.1
      exact ⟨hclosed, hinstalled h.2⟩
    | _ => exact hshut h

/-- The task is a connect in progress. -/
def Task.connects : Task → Bool
  | connect (.done _) => false
  | connect _ => true
  | _ => false

namespace Client

/-- The move begins a connect. -/
def Move.connects : Move → Bool
  | .start (.connect _) => true
  | _ => false

variable {config : Config} {c c' c₁ c₂ : Client} {t u : TaskId} {choice : Choice} {m : Move}
  {ms ms' : List Move} {task task' x : Task} {turn turn' : Option TaskId}

/-- The close itself does its part. -/
theorem CloseStep.hasShut {p : ClosePhase} {next : Next ClosePhase Unit}
    (h : CloseStep c t p c₁ next) (hp : ClosePhase.HasShut c.shared.lifecycle (some p)) :
    ClosePhase.HasShut c₁.shared.lifecycle (next.elim some none) := by
  cases h with
  | mark => rfl
  | bump => exact hp
  | detach => exact ⟨hp, rfl⟩
  | publish d | signal d => exact hp
  | ask tasks => exact (lifecycle_request c.shared t).symm ▸ hp
  | take tasks held =>
    obtain ⟨hclosed, hinstalled⟩ := hp
    have hshut : Lifecycle.IsShut { c.shared.lifecycle with sink := none } :=
      ⟨hclosed, hinstalled, rfl⟩
    cases c.shared.outbound.sink <;> exact hshut
  | _ => exact hp

theorem TaskStep.closing_cases (f : CloseFrame) {p : ClosePhase}
    (h : TaskStep c t choice (f.next (.phase p)) c₁ task') :
    ∃ next, task' = f.next next ∧ CloseStep c t p c₁ next := by
  generalize hx : f.next (.phase p) = x at h
  cases h with
  | @closing f' _ q next h => cases f <;> cases f' <;> cases hx <;> exact ⟨next, rfl, h⟩
  | opening f' => cases f <;> cases f' <;> cases hx
  | calling f' => cases f <;> cases f' <;> cases hx
  | starting f' => cases f <;> cases f' <;> cases hx
  | connect h => cases f <;> cases hx <;> cases h
  | _ => cases f <;> cases hx

theorem TaskStep.close_cases {p : Option ClosePhase}
    (h : TaskStep c t choice (.close p) c₁ task') :
    ∃ q next, p = some q ∧ task' = .close (next.elim some none) ∧ CloseStep c t q c₁ next := by
  cases p with
  | some q =>
    obtain ⟨next, rfl, hclose⟩ := TaskStep.closing_cases .close h
    exact ⟨q, next, rfl, by cases next <;> rfl, hclose⟩
  | none =>
    generalize hx : Task.close none = x at h
    cases h with
    | opening f | closing f | calling f | starting f => cases f <;> cases hx
    | _ => cases hx

/-- No connect is in progress. -/
def IsUnconnected (c : Client) : Prop :=
  ∀ (t : TaskId) x, c.tasks[t]? = some x → x.connects = false

theorem isUnconnected_of_all (h : (c.tasks.all fun x => !x.connects) = true) :
    c.IsUnconnected := by
  intro t x hx
  simpa using forall_task_of_all h t x hx

theorem exists_connect_of_role (h : x.role = .connecting) : ∃ p, x = .connect p := by
  cases x with
  | connect p => exact ⟨p, rfl⟩
  | close p | receive g p | reconnect epoch p | discard p => cases p <;> cases h
  | _ => cases h

theorem ne_connecting_of_connects (hconnects : x.connects = false) : x.role ≠ .connecting := by
  intro hrole
  obtain ⟨p, rfl⟩ := exists_connect_of_role hrole
  cases p <;> first | cases hconnects; done | cases hrole

theorem IsUnconnected.ne_connecting (h : c.IsUnconnected) (hx : c.tasks[t]? = some x) :
    x.role ≠ .connecting :=
  ne_connecting_of_connects (h t x hx)

theorem eq_connect_of_connects (h : x.connects = true) :
    ∃ p, x = .connect p ∧ ∀ result, p ≠ .done result := by
  cases x with
  | connect p =>
    refine ⟨p, rfl, ?_⟩
    rintro result rfl
    cases h
  | _ => cases h

/-- Who is connecting after a move that begins no connect has been so before. -/
theorem connects_of_apply (happly : c.apply m = some c') (hm : m.connects = false)
    (ht : c'.tasks[t]? = some x) (hx : x.connects = true) :
    ∃ y, c.tasks[t]? = some y ∧ y.connects = true := by
  obtain ⟨p, rfl, -⟩ := eq_connect_of_connects hx
  cases origin_of_apply happly ht with
  | started request heq hx' =>
    cases request with
    | connect url => cases heq ▸ hm
    | _ => cases hx'
  | spawned hnew => cases hnew.1
  | stayed _ ht => exact ⟨_, ht, hx⟩
  | @stepped choice y c₁ heq hy hstep =>
    -- a connect that is over takes no step
    cases y with
    | connect q =>
      cases q with
      | done result =>
        obtain ⟨z, c₂, z', hz, hstep, -⟩ := step_eq_some_iff.1 (heq ▸ happly)
        cases hy.symm.trans hz
        cases (taskStep_eq_none rfl).symm.trans hstep
      | _ => exact ⟨_, hy, rfl⟩
    | _ => cases hstep.kind
  | aborted hserving => cases hserving

theorem IsUnconnected.apply (h : c.IsUnconnected) (hm : m.connects = false)
    (happly : c.apply m = some c') : c'.IsUnconnected := by
  intro t x ht
  by_contra hx
  obtain ⟨y, hy, hconnects⟩ := connects_of_apply happly hm ht (Bool.not_eq_false _ ▸ hx)
  cases (h t y hy).symm.trans hconnects

/-- A close has come to a phase and done its part. -/
def Closes (c : Client) (t : TaskId) : Prop :=
  c.IsUnconnected ∧ ∃ p, c.tasks[t]? = some (.close p) ∧ ClosePhase.HasShut c.shared.lifecycle p

theorem Closes.apply (h : c.Closes t) (hm : m.connects = false) (happly : c.apply m = some c') :
    c'.Closes t := by
  obtain ⟨hc, p, ht, hp⟩ := h
  refine ⟨hc.apply hm happly, ?_⟩
  have hother (hm : ∀ choice, m ≠ .step t choice)
      (hp' : ClosePhase.HasShut c'.shared.lifecycle p) :
      ∃ p, c'.tasks[t]? = some (.close p) ∧ ClosePhase.HasShut c'.shared.lifecycle p :=
    ⟨p, getElem?_unstepped happly ht rfl hm, hp'⟩
  obtain ⟨hm, hlife⟩ | ⟨u, choice, x, c₁, x', rfl, hx, hstep, rfl⟩ := lifecycle_of_apply happly
  · exact hother (hm t) (hlife.symm ▸ hp)
  · by_cases hut : u = t
    · subst hut
      cases ht.symm.trans hx
      obtain ⟨q, next, rfl, rfl, hclose⟩ := hstep.close_cases
      exact ⟨_, hstep.getElem?_set_self ht, hclose.hasShut hp⟩
    · refine hother (fun choice' heq => ?_) (hp.step hstep.lifecycle (hc.ne_connecting hx))
      cases heq
      exact hut rfl

theorem Closes.follow (h : c.Closes t) (hms : ∀ m ∈ ms, m.connects = false)
    (hfollow : c.follow ms = some c') : c'.Closes t :=
  follow_induct_of_forall (P := (Closes · t)) hms hfollow h fun _ _ _ hm happly h =>
    h.apply hm happly

theorem IsUnconnected.closes (h : c.IsUnconnected) (happly : c.apply (.start .close) = some c') :
    c'.Closes c.tasks.length := by
  refine ⟨h.apply rfl happly, some .mark, ?_, trivial⟩
  cases happly
  exact List.getElem?_concat_length

/-- Some close is about to take the link out. -/
def Detaching (c : Client) : Prop :=
  ∃ (t : TaskId) (x : Task), c.tasks[t]? = some x ∧ x.role = .closing .detach

theorem isServing_of_closing {p : ClosePhase} (h : x.role = .closing p) :
    x.isServing = false := by
  cases x with
  | receive g p => cases p <;> cases h
  | heart g p => cases h
  | _ => rfl

theorem Reachable.current (run : Reachable config c) :
    c.shared.lifecycle.IsCurrent ∨ c.Detaching := by
  induction run with
  | fresh => exact .inl (.inl rfl)
  | @move c c' m before happly ih =>
    have hstill (u : TaskId) (y : Task) (hy : c.tasks[u]? = some y)
        (hrole : y.role = .closing .detach) (hm : ∀ choice, m ≠ .step u choice) : c'.Detaching :=
      ⟨u, y, getElem?_unstepped happly hy (isServing_of_closing hrole) hm, hrole⟩
    obtain ⟨hm, hlife⟩ | ⟨t, choice, x, c₁, x', rfl, hx, hstep, rfl⟩ := lifecycle_of_apply happly
    · obtain hcurrent | ⟨u, y, hy, hrole⟩ := ih
      · exact .inl (hlife.symm ▸ hcurrent)
      · exact .inr (hstill u y hy hrole (hm u))
    · obtain hcurrent | hrole' | ⟨hdetach, hcurrent⟩ := hstep.lifecycle.current
      · exact .inl hcurrent
      · exact .inr ⟨t, x', hstep.getElem?_set_self hx, hrole'⟩
      · obtain h | ⟨u, y, hy, hrole⟩ := ih
        · exact .inl (hcurrent h)
        · refine .inr (hstill u y hy hrole ?_)
          rintro choice' ⟨⟩
          cases hx.symm.trans hy
          exact hdetach hrole

/-- In any interleaving an installed link is the last one and has been opened under the current
epoch, unless a close that has raised the epoch is about to take it out. And if nobody is connecting
when a close begins and nobody begins to afterwards, then from its end on there is no link, whatever
else was or is in progress. -/
theorem closed_client_has_no_link (run : Reachable config c) :
    ((∀ (t : TaskId) x, c.tasks[t]? = some x → x.role ≠ .closing .detach) →
      ∀ g, c.shared.link.installed = some g →
        g = c.shared.link.generation ∧ c.shared.link.openedUnder = c.shared.epoch) ∧
    (c.IsUnconnected → ∀ ms c₁, (∀ m ∈ ms, m.connects = false) →
      c.follow (.start .close :: ms) = some c₁ →
      c₁.tasks[c.tasks.length]? = some (.close none) →
      c₁.shared.link.installed = none ∧ c₁.shared.outbound.sink = none) := by
  constructor
  · intro hdetach g hg
    refine ⟨run.installed_eq hg, ?_⟩
    obtain (hnone | hcurrent) | ⟨t, x, hx, hrole⟩ := run.current
    · cases hg.symm.trans hnone
    · exact hcurrent
    · exact absurd hrole (hdetach t x hx)
  · intro hc ms c₁ hms hfollow hdone
    obtain ⟨c₂, hstart, hfollow⟩ := follow_cons.1 hfollow
    obtain ⟨-, p, ht, hp⟩ := (hc.closes hstart).follow hms hfollow
    cases hdone.symm.trans ht
    exact ⟨hp.installed, hp.sink⟩

/-- The close with this number is over. -/
def isClosed (c : Client) (t : TaskId) : Bool :=
  match c.tasks[t]? with
  | some (.close none) => true
  | _ => false

theorem close_of_isClosed (h : c.isClosed t = true) : c.tasks[t]? = some (.close none) := by
  unfold isClosed at h
  split at h
  next ht => exact ht
  next => cases h

/-- A close begins, but before its first step the link is lost, taken down and dialed again; the
dial is answered after the end of the close. -/
def closingLate : List Move :=
  .step 1 (.frame .ended) :: List.replicate 10 (.step 1 .run) ++
    [.step 4 .run, .step 4 .run, .step 4 (.drawn .zero), .step 4 .elapsed] ++
    List.replicate 5 (.step 4 .run) ++ List.replicate 9 (.step 3 .run) ++
    [.step 4 (.upgraded (some Protocol.subprotocol)), .step 4 .run, .step 4 .run]

theorem closed_client_has_no_link_dialing : ∃ c c₁ g, Reachable .standard c ∧
    c.IsUnconnected ∧ c.shared.link.installed = some g ∧
    c.follow (.start .close :: closingLate) = some c₁ ∧
    c₁.tasks[c.tasks.length]? = some (.close none) ∧
    c.shared.link.openedUnder = c.shared.epoch ∧
    c₁.shared.link.installed = none ∧ c₁.shared.outbound.sink = none := by
  have hrun : ((fresh .standard).follow (connecting 0)).any (fun c =>
      (c.follow (.start .close :: closingLate)).any fun c₁ =>
      (c.tasks.all fun x => !x.connects && x.role ≠ .closing .detach) = true ∧
      c.shared.link.installed = some 2 ∧ c₁.isClosed c.tasks.length = true) = true := by
    decide +kernel
  obtain ⟨c, hc, hrun⟩ := Option.any_eq_true _ _ |>.1 hrun
  obtain ⟨c₁, hc₁, hfacts⟩ := Option.any_eq_true _ _ |>.1 hrun
  obtain ⟨htasks, hinstalled, hdone⟩ := of_decide_eq_true hfacts
  have run : Reachable .standard c := reachable_iff_follow.2 ⟨_, hc⟩
  have htask (t : TaskId) (x : Task) (hx : c.tasks[t]? = some x) :
      x.connects = false ∧ x.role ≠ .closing .detach := by
    simpa using forall_task_of_all htasks t x hx
  have hunconnected : c.IsUnconnected := fun t x hx => (htask t x hx).1
  exact ⟨c, c₁, 2, run, hunconnected, hinstalled, hc₁, close_of_isClosed hdone,
    ((closed_client_has_no_link run).1 (fun t x hx => (htask t x hx).2) 2 hinstalled).2,
    (closed_client_has_no_link run).2 hunconnected closingLate c₁ (by decide) hc₁
      (close_of_isClosed hdone)⟩

/-- The client is closed and its status says so, and nobody is about to publish another one. -/
structure StaysClosed (c : Client) : Prop where
  closed : c.shared.closed = true
  status : c.shared.status = .closed
  settled : ∀ (t : TaskId) x, c.tasks[t]? = some x → x.role.isPublishing = false

/-- No connect is outside its closes and its opening. -/
def IsUndialed (c : Client) : Prop :=
  ∀ (t : TaskId) x, c.tasks[t]? = some x → x.role ≠ .connecting

theorem IsUnconnected.undialed (h : c.IsUnconnected) : c.IsUndialed := fun _ _ => h.ne_connecting

theorem IsUndialed.stays_closed (h : c.IsUndialed) (hclosed : c.shared.closed = true)
    (happly : c.apply m = some c') : c'.shared.closed = true := by
  obtain ⟨-, hlife⟩ | ⟨t, choice, x, c₁, x', -, hx, hstep, rfl⟩ := lifecycle_of_apply happly
  · exact (congrArg Lifecycle.closed hlife).trans hclosed
  · exact (hstep.lifecycle.stays_closed (h t x hx) hclosed).1

theorem not_publishing_of_isNew (h : x.isNew = true) : x.role.isPublishing = false := by
  unfold Task.isNew at h
  split at h <;> first | rfl | cases h

theorem not_publishing_of_isDone (h : x.isDone = true) : x.role.isPublishing = false := by
  unfold Task.isDone at h
  split at h <;> first | rfl | cases h

theorem StaysClosed.apply (h : c.StaysClosed) (hc : c.IsUndialed)
    (happly : c.apply m = some c') : c'.StaysClosed := by
  refine ⟨hc.stays_closed h.closed happly, ?_, fun t x ht => ?_⟩
  · obtain ⟨-, hlife⟩ | ⟨t, choice, x, c₁, x', -, hx, hstep, rfl⟩ := lifecycle_of_apply happly
    · exact (congrArg Lifecycle.status hlife).trans h.status
    · exact hstep.lifecycle.stays_reported (hc t x hx) (h.settled t x hx) h.status
  · cases origin_of_apply happly ht with
    | started request _ hx => cases request <;> cases hx <;> rfl
    | spawned hnew => exact not_publishing_of_isNew hnew.1
    | stayed _ ht => exact h.settled t x ht
    | stepped _ hy hstep =>
      by_contra hx
      obtain hpublishing | hopen := hstep.lifecycle.publishing (Bool.not_eq_false _ ▸ hx)
      · cases (h.settled t _ hy).symm.trans hpublishing
      · cases hopen.symm.trans h.closed
    | aborted _ hdone => exact not_publishing_of_isDone hdone

theorem StaysClosed.follow (h : c.StaysClosed) (hc : c.IsUnconnected)
    (hms : ∀ m ∈ ms, m.connects = false) (hfollow : c.follow ms = some c') : c'.StaysClosed := by
  have hinv : c'.IsUnconnected ∧ c'.StaysClosed :=
    follow_induct_of_forall (P := fun c => c.IsUnconnected ∧ c.StaysClosed) hms hfollow ⟨hc, h⟩
      fun _ _ _ hm happly ⟨hc, h⟩ => ⟨hc.apply hm happly, h.apply hc.undialed happly⟩
  exact hinv.2

theorem apply_opening (f : OpenFrame) {p : OpenPhase} {next : Next OpenPhase (Except Failure Unit)}
    (ht : c.tasks[t]? = some (f.next (.phase p)))
    (h : c.openStep t f.epoch choice p = some (c₁, next)) :
    c.apply (.step t choice) = some ⟨c₁.shared, c₁.tasks.set t (f.next next)⟩ := by
  refine step_eq_some_iff.2 ⟨_, c₁, f.next next, ht, ?_, rfl⟩
  cases f with
  | connect epoch =>
    simp only [OpenFrame.next, taskStep, connectStep]
    rcases next with p' | ⟨_ | _⟩ <;> simp only [OpenFrame.epoch] at h <;> simp [h]
  | reconnect epoch =>
    simp only [OpenFrame.next, taskStep, reconnectStep]
    rcases next with p' | ⟨_ | _⟩ <;> simp only [OpenFrame.epoch] at h <;> simp [h]

/-- Though nobody begins to connect, the client may come to report another status than that of a
closed one. -/
def MayReopen (c : Client) : Prop :=
  ∃ ms c', (∀ m ∈ ms, m.connects = false) ∧ c.follow ms = some c' ∧ c'.shared.status ≠ .closed

theorem MayReopen.of_status (h : c.shared.status ≠ .closed) : c.MayReopen :=
  ⟨[], c, nofun, rfl, h⟩

theorem MayReopen.of_step (choice : Choice) (h : c.apply (.step t choice) = some c')
    (hc : c'.MayReopen) : c.MayReopen := by
  obtain ⟨ms, c₁, hms, hfollow, hstatus⟩ := hc
  exact ⟨_, c₁, List.forall_mem_cons.2 ⟨rfl, hms⟩, follow_cons.2 ⟨c', h, hfollow⟩, hstatus⟩

/-- An opening that has put its link in place goes on to publish it. -/
theorem mayReopen_of_opening (f : OpenFrame) {p : OpenPhase} (hp : p.hasInstalled = true)
    (ht : c.tasks[t]? = some (f.next (.phase p))) : c.MayReopen := by
  have hpublish (c : Client) (ht : c.tasks[t]? = some (f.next (.phase .publish))) :
      c.MayReopen :=
    .of_step .run (apply_opening f ht rfl) (.of_status nofun)
  have hreset (c : Client) (ht : c.tasks[t]? = some (f.next (.phase .resetAttempts))) :
      c.MayReopen :=
    .of_step .run (apply_opening f ht rfl)
      (hpublish _ (List.getElem?_set_self (List.getElem?_eq_some_iff.1 ht).1))
  cases p with
  | failRetired =>
    exact .of_step .run (apply_opening f ht rfl)
      (hreset _ (List.getElem?_set_self (List.getElem?_eq_some_iff.1 ht).1))
  | resetAttempts => exact hreset c ht
  | publish => exact hpublish c ht
  | _ => cases hp

theorem mayReopen_of_isPublishing (ht : c.tasks[t]? = some x) (hx : x.role.isPublishing = true) :
    c.MayReopen := by
  cases x with
  | connect p =>
    cases p with
    | opening epoch p => exact mayReopen_of_opening (.connect epoch) hx ht
    | _ => cases hx
  | reconnect epoch p =>
    cases p with
    | opening p => exact mayReopen_of_opening (.reconnect epoch) hx ht
    | _ => cases hx
  | receive g p =>
    cases p with
    | disconnecting p =>
      obtain rfl := of_decide_eq_true hx
      exact .of_step .run (step_eq_some_iff.2 ⟨_, _, _, ht, rfl, rfl⟩) (.of_status nofun)
    | _ => cases hx
  | close p => cases p <;> cases hx
  | discard p => cases p <;> cases hx
  | _ => cases hx

/-- What a close has published by a phase if everybody else rests while it runs. -/
def HasReported (c : Client) : Option ClosePhase → Prop
  | some .mark => True
  | some .bump | some .detach | some (.publish _) => c.shared.closed = true
  | _ => c.StaysClosed

theorem not_publishing_of_rests (h : rests x = true) : x.role.isPublishing = false := by
  cases x with
  | connect p =>
    cases p with
    | opening epoch p => cases p <;> first | rfl | cases h
    | _ => rfl
  | close p => cases p <;> rfl
  | receive g p =>
    cases p with
    | disconnecting p => cases p <;> first | rfl | cases h
    | _ => rfl
  | reconnect epoch p =>
    cases p with
    | opening p => cases p <;> first | rfl | cases h
    | _ => rfl
  | discard p => cases p <;> rfl
  | _ => rfl

theorem HasReported.apply {p : Option ClosePhase} (h : c.HasReported p) (hc : c.IsUndialed)
    (happly : c.apply m = some c') : c'.HasReported p := by
  cases p with
  | none => exact StaysClosed.apply h hc happly
  | some p =>
    cases p with
    | mark => trivial
    | bump | detach | publish d => exact hc.stays_closed h happly
    | _ => exact StaysClosed.apply h hc happly

/-- The close itself, among others that rest. -/
theorem HasReported.step {p : ClosePhase} {next : Next ClosePhase Unit} (f : CloseFrame)
    (h : c.HasReported (some p)) (hc : c.IsUndialed)
    (hothers : ∀ (u : TaskId) x, u ≠ t → c.tasks[u]? = some x → rests x = true)
    (hclose : CloseStep c t p c₁ next)
    (happly : c.apply m = some ⟨c₁.shared, c₁.tasks.set t (f.next next)⟩) :
    HasReported ⟨c₁.shared, c₁.tasks.set t (f.next next)⟩ (next.elim some none) := by
  cases hclose with
  | mark => rfl
  | bump | detach => exact h
  | publish d =>
    refine ⟨h, rfl, fun u x hu => ?_⟩
    obtain ⟨-, rfl⟩ | ⟨hut, hu⟩ := cases_set hu
    · exact f.not_publishing _
    · exact not_publishing_of_rests (hothers u x hut hu)
  | take tasks held =>
    have hstays := StaysClosed.apply h hc happly
    revert hstays
    cases c.shared.outbound.sink <;> exact id
  | _ => exact StaysClosed.apply h hc happly

/-- What a move makes of a task that is over once it has closed the client: it takes the next step
of the close, or is where it was. -/
theorem CloseFrame.after_apply (f : CloseFrame) {next : Next ClosePhase Unit}
    (hover : (f.next (.over ())).isDone = true) (ht : c.tasks[t]? = some (f.next next))
    (happly : c.apply m = some c') :
    c'.tasks[t]? = some (f.next next) ∨ ∃ choice q c₁ next', m = .step t choice ∧
      next = .phase q ∧ CloseStep c t q c₁ next' ∧
      c' = ⟨c₁.shared, c₁.tasks.set t (f.next next')⟩ ∧ c'.tasks[t]? = some (f.next next') := by
  by_cases hmine : ∃ choice, m = .step t choice
  · obtain ⟨choice, rfl⟩ := hmine
    obtain ⟨x, c₁, x', hx, hstep, rfl⟩ := step_eq_some_iff.1 happly
    cases ht.symm.trans hx
    rcases next with q | r
    · obtain ⟨next', rfl, hclose⟩ := (taskStep_cases hstep).closing_cases f
      exact .inr ⟨choice, q, c₁, next', rfl, rfl, hclose, rfl,
      (taskStep_cases hstep).getElem?_set_self ht⟩
    · cases (taskStep_eq_none hover).symm.trans hstep
  · have hserving : (f.next next).isServing = false := by
      cases f <;> cases next <;> rfl
    exact .inl (getElem?_unstepped happly ht hserving fun choice heq => hmine ⟨choice, heq⟩)

/-- In a cooperative run a close goes on to publish what it has to, whoever steps. -/
theorem HasReported.move (f : CloseFrame) {next : Next ClosePhase Unit}
    (hover : (f.next (.over ())).isDone = true) (h : c.HasReported (next.elim some none))
    (hc : c.IsUndialed) (run : Cooperative config turn c) (ht : c.tasks[t]? = some (f.next next))
    (keeps : c.keepsTurn turn m = true) (happly : c.apply m = some c') :
    ∃ next' : Next ClosePhase Unit, c'.tasks[t]? = some (f.next next') ∧
      c'.HasReported (next'.elim some none) := by
  obtain ht' | ⟨choice, q, c₁, next', rfl, rfl, hclose, rfl, ht'⟩ := f.after_apply hover ht happly
  · exact ⟨next, ht', h.apply hc happly⟩
  · exact ⟨next', ht', h.step f hc (fun u x hut => run.others_rest keeps hut) hclose happly⟩

/-- A close has come to a phase in a cooperative run, and has published what it had to. -/
def Reports (config : Config) (t : TaskId) (turn : Option TaskId) (c : Client) : Prop :=
  Cooperative config turn c ∧ c.IsUnconnected ∧
    ∃ p, c.tasks[t]? = some (.close p) ∧ c.HasReported p

theorem Reports.apply (h : Reports config t turn c) (hm : m.connects = false)
    (keeps : c.keepsTurn turn m = true) (happly : c.apply m = some c') :
    Reports config t (m.turn turn) c' := by
  obtain ⟨run, hc, p, ht, hp⟩ := h
  refine ⟨.move m run keeps happly, hc.apply hm happly, ?_⟩
  obtain ⟨next, rfl⟩ : ∃ next : Next ClosePhase Unit, p = next.elim some none := by
    cases p with
    | some q => exact ⟨.phase q, rfl⟩
    | none => exact ⟨.over (), rfl⟩
  have htask (next : Next ClosePhase Unit) :
      Task.close (next.elim some none) = CloseFrame.close.next next := by
    cases next <;> rfl
  obtain ⟨next', ht', hp'⟩ := hp.move .close rfl hc.undialed run (htask next ▸ ht) keeps happly
  exact ⟨_, htask next' ▸ ht', hp'⟩

theorem Reports.run (h : Reports config t turn c) (hms : ∀ m ∈ ms, m.connects = false)
    (hrun : c.run turn ms = some (turn', c')) : Reports config t turn' c' := by
  refine run_induct hrun h fun ms₁ m turn₁ c₁ c₂ hpre _ h keeps happly => ?_
  exact h.apply (hms m (hpre.subset (List.mem_concat_self ..))) keeps happly

theorem StaysClosed.not_mayReopen (h : c.StaysClosed) (hc : c.IsUnconnected) : ¬c.MayReopen := by
  rintro ⟨ms, c', hms, hfollow, hstatus⟩
  exact hstatus (h.follow hc hms hfollow).status

theorem not_mayReopen_iff (hc : c.IsUnconnected) (hclosed : c.shared.closed = true) :
    ¬c.MayReopen ↔ c.shared.status = .closed ∧
      ∀ (t : TaskId) x, c.tasks[t]? = some x → x.role.isPublishing = false := by
  constructor
  · intro hlasts
    refine ⟨by_contra fun hstatus => hlasts (.of_status hstatus), fun t x hx => ?_⟩
    by_contra hpublishing
    exact hlasts (mayReopen_of_isPublishing hx (Bool.not_eq_false _ ▸ hpublishing))
  · rintro ⟨hstatus, hsettled⟩
    exact StaysClosed.not_mayReopen ⟨hclosed, hstatus, hsettled⟩ hc

/-- Suppose that nobody is connecting when a close begins and nobody begins to before its end. In
any interleaving the status stays that of a closed client from then on exactly if it is so by then
and nobody is about to publish another one. If the tasks switch at their waits only until then, it
always stays so. -/
theorem closed_status_lasts_iff (hc : c.IsUnconnected) :
    (∀ ms c₁, (∀ m ∈ ms, m.connects = false) → c.follow (.start .close :: ms) = some c₁ →
      c₁.tasks[c.tasks.length]? = some (.close none) →
      (¬c₁.MayReopen ↔ c₁.shared.status = .closed ∧
        ∀ (t : TaskId) x, c₁.tasks[t]? = some x → x.role.isPublishing = false)) ∧
    (∀ config turn, Cooperative config turn c → ∀ ms turn' c₁, (∀ m ∈ ms, m.connects = false) →
      c.run turn (.start .close :: ms) = some (turn', c₁) →
      c₁.tasks[c.tasks.length]? = some (.close none) → ¬c₁.MayReopen) := by
  constructor
  · intro ms c₁ hms hfollow hdone
    obtain ⟨c₀, hstart, hfollow⟩ := follow_cons.1 hfollow
    obtain ⟨hc₁, p, ht, hp⟩ := (hc.closes hstart).follow hms hfollow
    cases hdone.symm.trans ht
    exact not_mayReopen_iff hc₁ hp.closed
  · intro config turn run ms turn' c₁ hms hrun hdone
    obtain ⟨keeps, c₀, hstart, hrun⟩ := run_cons.1 hrun
    have hreports : Reports config c.tasks.length turn c₀ := by
      refine ⟨.move _ run keeps hstart, hc.apply rfl hstart, some .mark, ?_, trivial⟩
      cases hstart
      exact List.getElem?_concat_length
    obtain ⟨-, hc₁, p, ht, hp⟩ := hreports.run hms hrun
    cases hdone.symm.trans ht
    exact StaysClosed.not_mayReopen hp hc₁

theorem closed_status_lasts_iff_closing : ∃ turn c turn' c₁, Cooperative .standard turn c ∧
    c.IsUnconnected ∧ c.shared.status = .opened ∧
    c.run turn (.start .close :: closing 3 (some 1)) = some (turn', c₁) ∧
    c₁.tasks[c.tasks.length]? = some (.close none) ∧ ¬c₁.MayReopen ∧
    c₁.shared.status = .closed := by
  have hrun : ((fresh .standard).run none (connecting 0)).any (fun r =>
      (r.2.run r.1 (.start .close :: closing 3 (some 1))).any fun r' =>
      (r.2.tasks.all fun x => !x.connects) = true ∧ r.2.shared.status = .opened ∧
      r'.2.isClosed r.2.tasks.length = true) = true := by
    decide +kernel
  obtain ⟨⟨turn, c⟩, hc, hrun⟩ := Option.any_eq_true _ _ |>.1 hrun
  obtain ⟨⟨turn', c₁⟩, hc₁, hfacts⟩ := Option.any_eq_true _ _ |>.1 hrun
  obtain ⟨hconnects, hopened, hdone⟩ := of_decide_eq_true hfacts
  have run : Cooperative .standard turn c := .continues .fresh (continues_run hc)
  have hmoves : ∀ m ∈ closing 3 (some 1), m.connects = false := by decide
  have hunconnected := isUnconnected_of_all hconnects
  have hlasts := (closed_status_lasts_iff hunconnected).2 _ turn run _ turn' c₁ hmoves hc₁
    (close_of_isClosed hdone)
  exact ⟨turn, c, turn', c₁, run, hunconnected, hopened, hc₁, close_of_isClosed hdone, hlasts,
    ((closed_status_lasts_iff hunconnected).1 _ c₁ hmoves (follow_of_run hc₁)
      (close_of_isClosed hdone)).1 hlasts |>.1⟩

/-- After a close that nobody connects during has ended and has been published, another status is
published though nobody connects. -/
def IsOverwritten (status : Status) : Prop :=
  ∃ c c₁ c₂ ms ms', Reachable .standard c ∧ c.IsUnconnected ∧
    (∀ m ∈ ms ++ ms', m.connects = false) ∧ c.follow (.start .close :: ms) = some c₁ ∧
    c₁.tasks[c.tasks.length]? = some (.close none) ∧ c₁.shared.status = .closed ∧
    c₁.follow ms' = some c₂ ∧ c₂.shared.status = status

theorem isOverwritten_of_follow (before ms after : List Move) {status : Status}
    (hms : ∀ m ∈ ms ++ after, m.connects = false)
    (h : (((fresh .standard).follow before).any fun c =>
      (c.follow (.start .close :: ms)).any fun c₁ => (c₁.follow after).any fun c₂ =>
      (c.tasks.all fun x => !x.connects) = true ∧ c₁.isClosed c.tasks.length = true ∧
      c₁.shared.status = .closed ∧ c₂.shared.status = status) = true) : IsOverwritten status := by
  obtain ⟨c, hc, h⟩ := Option.any_eq_true _ _ |>.1 h
  obtain ⟨c₁, hc₁, h⟩ := Option.any_eq_true _ _ |>.1 h
  obtain ⟨c₂, hc₂, h⟩ := Option.any_eq_true _ _ |>.1 h
  obtain ⟨hconnects, hdone, hclosed, hstatus⟩ := of_decide_eq_true h
  exact ⟨c, c₁, c₂, ms, after, reachable_iff_follow.2 ⟨before, hc⟩, isUnconnected_of_all hconnects,
    hms, hc₁, close_of_isClosed hdone, hclosed, hc₂, hstatus⟩

/-- A receiver has taken its link down and found the client not closed. -/
def losingLink : List Move :=
  connecting 0 ++ .step 1 (.frame .ended) :: List.replicate 3 (.step 1 .run)

/-- A reconnect task has just installed the next link. -/
def reinstalling : List Move :=
  reopening ++ .step 3 .elapsed :: List.replicate 5 (.step 3 .run) ++
    .step 3 (.upgraded (some Protocol.subprotocol)) :: List.replicate 2 (.step 3 .run)

/-- A pass over a lost link and an opening each publish after the end of a close. -/
theorem closed_status_overwritten : IsOverwritten .reconnecting ∧ IsOverwritten .opened :=
  ⟨isOverwritten_of_follow losingLink (closing 3 none) [.step 1 .run]
      (by decide) (by decide +kernel),
    isOverwritten_of_follow reinstalling (closing 6 (some 4)) [.step 3 .run, .step 3 .run]
      (by decide) (by decide +kernel)⟩

end Client
end DuplexRpc
