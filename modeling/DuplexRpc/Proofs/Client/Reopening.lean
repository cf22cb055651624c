import DuplexRpc.Proofs.Client.Mark
import DuplexRpc.Proofs.Client.Order

/-!
Who opens a lost link again. As long as an open client wants its link back, some task watches over
it. So with every task at rest a client that has not been closed has its link or a reconnect task.
-/
namespace DuplexRpc

/-- The client has lost its link and wants it back. -/
def Shared.WantsLink (s : Shared) : Prop := s.status = .reconnecting ∧ s.closed = false

def ClosePhase.isUnpublished : ClosePhase → Bool
  | bump | detach | publish _ => true
  | _ => false

/-- The task will see to it that a reconnecting client is closed, connected or reconnected. -/
def Task.isVigilant : Task → Bool
  | connect (.closing _ p) | connect (.failing p _) => p.isUnpublished
  | connect (.publish _) => true
  | close (some p) => p.isUnpublished
  | receive _ (.disconnecting p) =>
    match p with
    | .request false | .lock false | .fail false | .starting _ => true
    | _ => false
  | reconnect _ p => p ≠ .done
  | _ => false

/-- The task has published that it connects, and has yet to publish how that ended. -/
def Task.isConnecting : Task → Bool
  | connect (.opening _ _) => true
  | connect (.failing p _) => p = .mark || p.isUnpublished
  | _ => false

namespace Client

variable {config : Config} {c c' c₁ : Client} {t u : TaskId} {choice : Choice}
  {turn : Option TaskId} {task task' x : Task} {m : Move}

theorem isVigilant_of_ownsMark (h : x.ownsMark = true) : x.isVigilant = true := by
  cases x with
  | receive g p =>
    cases p with
    | disconnecting p => cases p <;> first | rfl | cases h
    | _ => cases h
  | reconnect epoch p => cases p <;> first | rfl | cases h
  | _ => cases h

theorem isVigilant_of_isLooping {epoch : Nat} {p : ReconnectPhase} (h : p.isLooping = true) :
    (Task.reconnect epoch p).isVigilant = true :=
  isVigilant_of_ownsMark (ownsMark_of_isLooping h)

/-- Who makes the client want its link keeps watch, and whoever keeps watch goes on until the client
does not want it any more, or leaves it to the owner of the mark. -/
theorem TaskStep.vigilant (h : TaskStep c t choice task c₁ task') (hd : task.isDiscard = false)
    (hmark : task.ownsMark = true → c.shared.reconnecting = true)
    (hwants : c₁.shared.WantsLink) :
    (c.shared.WantsLink ∧ task.isVigilant = false) ∨ task'.isVigilant = true ∨
      c₁.shared.reconnecting = true := by
  cases h with
  | @opening f _ p next h =>
    cases f with
    | connect epoch =>
      refine .inl ⟨?_, rfl⟩
      cases h with
      | publish => cases hwants.1
      | _ => exact hwants
    | reconnect epoch => rcases next with _ | ⟨_ | _⟩ <;> exact .inr (.inl rfl)
  | closing f h =>
    cases h with
    | mark => cases hwants.2
    | bump => cases f <;> exact .inr (.inl rfl)
    | detach => cases f <;> exact .inr (.inl rfl)
    | publish d => cases hwants.1
    | _ => cases f <;> exact .inl ⟨hwants, rfl⟩
  | calling f h =>
    refine .inl ⟨?_, by cases f <;> rfl⟩
    cases h with
    | send id n h | sent id n h | unsent id n h => cases h <;> exact hwants
    | _ => exact hwants
  | starting f h =>
    cases h with
    | closed h => cases h.symm.trans hwants.2
    | taken h => exact .inr (.inr h)
    | spawn => exact .inr (.inr (hmark (by cases f <;> rfl)))
    | _ => cases f <;> exact .inr (.inl rfl)
  | disconnecting g h =>
    cases h with
    | publish => exact .inr (.inl rfl)
    | ask closed | clear closed held =>
      cases closed
      · exact .inr (.inl rfl)
      · exact .inl ⟨hwants, rfl⟩
    | fail => exact .inr (.inl rfl)
    | _ => exact .inl ⟨hwants, rfl⟩
  | replying g response h => cases h <;> exact .inl ⟨hwants, rfl⟩
  | connect h =>
    cases h with
    | unclose epoch => exact .inr (.inl rfl)
    | publish epoch => cases hwants.1
    | _ => exact .inl ⟨hwants, rfl⟩
  | receive g h => cases h <;> exact .inl ⟨hwants, rfl⟩
  | heart g h => cases h <;> exact .inl ⟨hwants, rfl⟩
  | reconnect epoch h =>
    cases h with
    | look hp hp' => exact .inr (.inl (isVigilant_of_isLooping hp'))
    | breakOff hsample hnone => exact .inr (.inr (hmark rfl))
    | closed h => cases h.symm.trans hwants.2
    | settled h => exact absurd hwants.1 h
    | _ => exact .inr (.inl rfl)
  | discard h => cases hd

theorem status_of_outer (h : c.apply m = some c') (hm : ∀ t choice, m ≠ .step t choice) :
    c'.shared.status = c.shared.status ∧ c'.shared.closed = c.shared.closed ∧
      c'.shared.reconnecting = c.shared.reconnecting := by
  cases apply_cases h with
  | step ht hstep => exact absurd rfl (hm _ _)
  | _ => exact ⟨rfl, rfl, rfl⟩

/-- If a step can only bring about a need, or take away who meets it, where it leaves someone who
meets it, then whenever there is the need somebody meets it. -/
theorem Reachable.exists_meets (run : Reachable config c) (hkept : c.IsKept)
    (needs : Shared → Prop) {meets : Task → Bool} (hfresh : ¬needs (.fresh config))
    (houter : ∀ {s s'}, s'.status = s.status → s'.closed = s.closed →
      s'.reconnecting = s.reconnecting → needs s' → needs s)
    (hstep : ∀ {c t choice task c₁ task'}, Reachable config c → c.IsKept →
      c.tasks[t]? = some task → TaskStep c t choice task c₁ task' →
      Reachable config ⟨c₁.shared, c₁.tasks.set t task'⟩ →
      IsKept ⟨c₁.shared, c₁.tasks.set t task'⟩ → needs c₁.shared →
      (needs c.shared ∧ meets task = false) ∨ ∃ (u : TaskId) (x : Task),
        (c₁.tasks.set t task')[u]? = some x ∧ meets x = true)
    (hneeds : needs c.shared) :
    ∃ (t : TaskId) (x : Task), c.tasks[t]? = some x ∧ meets x = true := by
  induction run with
  | fresh => exact absurd hneeds hfresh
  | @move c c' m before h ih =>
    have hkept₀ := hkept.before h
    cases apply_cases h with
    | @step t choice task task' c₁ ht hcase =>
      obtain ⟨hbefore, hidle⟩ | hmeets :=
        hstep before hkept₀ ht hcase (.move _ before h) hkept hneeds
      · obtain ⟨u, x, hu, hx⟩ := ih hkept₀ hbefore
        have hut : u ≠ t := by
          rintro rfl
          cases ht.symm.trans hu
          cases hidle.symm.trans hx
        exact ⟨u, x, getElem?_other (hcase.grows (hkept₀.not_discard ht)) hu hut, hx⟩
      · exact hmeets
    | _ =>
      have hsame := status_of_outer h nofun
      obtain ⟨u, x, hu, hx⟩ := ih hkept₀ (houter hsame.1 hsame.2.1 hsame.2.2 hneeds)
      exact ⟨u, x, getElem?_of_outer h nofun hu, hx⟩

/-- While an open client wants its link back, some task watches over it, or the mark is set. -/
theorem Reachable.exists_vigilant_or_marked (run : Reachable config c) (hkept : c.IsKept)
    (hwants : c.shared.WantsLink) :
    (∃ (t : TaskId) (x : Task), c.tasks[t]? = some x ∧ x.isVigilant = true) ∨
      c.shared.reconnecting = true := by
  cases hmark : c.shared.reconnecting with
  | true => exact .inr rfl
  | false =>
    refine .inl (run.exists_meets hkept (fun s => s.WantsLink ∧ s.reconnecting = false)
      (by simp [Shared.WantsLink, Shared.fresh])
      (fun hstatus hclosed hmark h => ⟨⟨hstatus ▸ h.1.1, hclosed ▸ h.1.2⟩, hmark ▸ h.2⟩) ?_
      ⟨hwants, hmark⟩)
    intro c t choice task c₁ task' run hkept ht h run' hkept' hneeds
    obtain ⟨hwants, hunmarked⟩ := hneeds
    have hd := hkept.not_discard ht
    have howner := (run.marked hkept).marked t task ht
    obtain ⟨hbefore, hidle⟩ | hwatches | hmarked := h.vigilant hd howner hwants
    · -- an idle task does not own the mark, so it has not cleared it
      refine .inl ⟨⟨hbefore, ?_⟩, hidle⟩
      have hnot : task.ownsMark ≠ true := fun howns => by
        simp [isVigilant_of_ownsMark howns] at hidle
      cases h.mark hd with
      | same mark owns new => exact mark.symm.trans hunmarked
      | claim before mark owns tasks => exact before
      | passOn before | clear before | breakOff before => exact absurd before hnot
    · exact .inr ⟨t, task',
        getElem?_stepped (h.grows hd) (List.getElem?_eq_some_iff.1 ht).1, hwatches⟩
    · cases hmarked.symm.trans hunmarked

/-- While an open client wants its link back, some task watches over it. -/
theorem Unbroken.exists_vigilant (run : Unbroken config c) (hkept : c.IsKept)
    (hwants : c.shared.WantsLink) :
    ∃ (t : TaskId) (x : Task), c.tasks[t]? = some x ∧ x.isVigilant = true := by
  obtain hwatches | hmark := run.reachable.exists_vigilant_or_marked hkept hwants
  · exact hwatches
  · obtain ⟨t, x, hx, howns⟩ := run.exists_owner hkept hmark
    exact ⟨t, x, hx, isVigilant_of_ownsMark howns⟩

theorem TaskStep.connecting (h : TaskStep c t choice task c₁ task') (hd : task.isDiscard = false)
    (hstatus : c₁.shared.status = .connecting) :
    (c.shared.status = .connecting ∧ task.isConnecting = false) ∨ task'.isConnecting = true := by
  cases h with
  | opening f h =>
    cases f with
    | connect epoch =>
      cases h with
      | publish => cases hstatus
      | _ => exact .inr rfl
    | reconnect epoch =>
      cases h with
      | publish => cases hstatus
      | _ => exact .inl ⟨hstatus, rfl⟩
  | closing f h =>
    cases h with
    | publish d => cases hstatus
    | _ => cases f <;> first | exact .inr rfl | exact .inl ⟨hstatus, rfl⟩
  | calling f h =>
    refine .inl ⟨?_, by cases f <;> rfl⟩
    cases h with
    | send id n h | sent id n h | unsent id n h => cases h <;> exact hstatus
    | _ => exact hstatus
  | starting f h => cases h <;> cases f <;> exact .inl ⟨hstatus, rfl⟩
  | disconnecting g h =>
    cases h with
    | publish => cases hstatus
    | _ => exact .inl ⟨hstatus, rfl⟩
  | replying g response h => cases h <;> exact .inl ⟨hstatus, rfl⟩
  | connect h =>
    cases h with
    | publish epoch => exact .inr rfl
    | _ => exact .inl ⟨hstatus, rfl⟩
  | receive g h => cases h <;> exact .inl ⟨hstatus, rfl⟩
  | heart g h => cases h <;> exact .inl ⟨hstatus, rfl⟩
  | reconnect epoch h => cases h <;> exact .inl ⟨hstatus, rfl⟩
  | discard h => cases hd

/-- A client is connecting only while a connect opens a link for it. -/
theorem Reachable.exists_connecting (run : Reachable config c) (hkept : c.IsKept)
    (hstatus : c.shared.status = .connecting) :
    ∃ (t : TaskId) (x : Task), c.tasks[t]? = some x ∧ x.isConnecting = true := by
  refine run.exists_meets hkept (·.status = .connecting) (by simp [Shared.fresh])
    (fun hstatus _ _ h => hstatus ▸ h) ?_ hstatus
  intro c t choice task c₁ task' run hkept ht h run' hkept' hstatus
  have hd := hkept.not_discard ht
  refine (h.connecting hd hstatus).imp_right fun hmeets => ?_
  exact ⟨t, task', getElem?_stepped (h.grows hd) (List.getElem?_eq_some_iff.1 ht).1, hmeets⟩

/-- A connect, a close, an opening or a pass is in progress, or a reconnect task is about to end. -/
def isBusy : Task → Bool
  | .connect (.done _) => false
  | .connect _ => true
  | .close p => p.isSome
  | .receive _ (.disconnecting _) => true
  | .reconnect _ .done => false
  | .reconnect _ p => !p.isLooping
  | _ => false

def isLoop : Task → Bool
  | .reconnect _ p => p.isLooping
  | _ => false

/-- Nothing is in progress that changes the link. -/
def Quiet (c : Client) : Prop := ∀ (t : TaskId) (x : Task), c.tasks[t]? = some x → isBusy x = false

theorem isLoop_of_isVigilant (h : x.isVigilant = true) (hbusy : isBusy x = false) :
    isLoop x = true := by
  cases x with
  | connect p => cases p <;> first | (cases hbusy; done) | cases h
  | close p => cases p <;> first | (cases hbusy; done) | cases h
  | receive g p => cases p <;> first | (cases hbusy; done) | cases h
  | reconnect epoch p =>
    cases p with
    | done => simp [Task.isVigilant] at h
    | _ => first | rfl | cases hbusy
  | _ => cases h

theorem isBusy_of_isConnecting (h : x.isConnecting = true) : isBusy x = true := by
  cases x with
  | connect p => cases p <;> first | rfl | cases h
  | _ => cases h

/-- Who is not busy leaves everything in agreement, between its waits too. -/
theorem agrees_of_not_isBusy (h : isBusy x = false) {s : Shared} (hx : x.Agrees s) : s.Agrees := by
  cases x with
  | connect p => cases p <;> first | exact hx | cases h
  | close p => cases p <;> first | exact hx | cases h
  | call spec p => exact agrees_of_call hx
  | receive g p => cases p <;> first | exact hx | cases h
  | heart g p =>
    cases p with
    | probing p => exact agrees_of_call hx
    | _ => exact hx
  | reconnect epoch p => cases p <;> first | exact hx | cases h
  | discard p => exact hx

/-- The client has its link: a generation is installed, and the slot has its sink. -/
def HasLink (c : Client) : Prop :=
  ∃ g, c.shared.link.installed = some g ∧ c.shared.outbound.sink = some g

def HasLoop (c : Client) : Prop := ∃ (t : TaskId) (x : Task), c.tasks[t]? = some x ∧ isLoop x = true

/-- Whoever has the turn of a quiet client leaves everything in agreement and in order. -/
theorem Cooperative.settled (run : Cooperative config turn c) (hkept : c.IsKept)
    (hquiet : c.Quiet) : c.shared.Agrees ∧ c.shared.Ordered c.stakes := by
  refine ⟨?_, run.shared_ordered hkept⟩
  have hagrees := run.agrees hkept
  cases turn with
  | none => exact hagrees
  | some t =>
    obtain ⟨x, hx, hagrees⟩ := hagrees
    exact agrees_of_not_isBusy (hquiet t x hx) hagrees

theorem Reachable.status_ne_connecting (run : Reachable config c) (hkept : c.IsKept)
    (hquiet : c.Quiet) : c.shared.status ≠ .connecting := by
  intro hstatus
  obtain ⟨t, x, hx, hconnecting⟩ := run.exists_connecting hkept hstatus
  cases (isBusy_of_isConnecting hconnecting).symm.trans (hquiet t x hx)

theorem Reachable.hasLoop (run : Reachable config c) (hkept : c.IsKept)
    (hdelay : config.backoff.Reckonable) (hquiet : c.Quiet) (hwants : c.shared.WantsLink) :
    c.HasLoop := by
  obtain ⟨t, x, hx, hvigilant⟩ := (run.unbroken hdelay).exists_vigilant hkept hwants
  exact ⟨t, x, hx, isLoop_of_isVigilant hvigilant (hquiet t x hx)⟩

/-- A client that is not closed is not abandoned: with nothing in progress that changes the link, a
reconnect task is at work whenever the status says so, in any interleaving; and if tasks switch at
their waits only, then there is the link or a reconnect task. -/
theorem open_client_has_link_or_loop (hdelay : config.backoff.Reckonable) (hkept : c.IsKept)
    (hquiet : c.Quiet) (hclosed : c.shared.closed = false) :
    (Reachable config c → c.shared.status ≠ .connecting ∧
      (c.shared.status = .reconnecting → c.HasLoop)) ∧
    ∀ turn, Cooperative config turn c → c.HasLink ∨ c.HasLoop := by
  refine ⟨fun run => ⟨run.status_ne_connecting hkept hquiet,
    fun hstatus => run.hasLoop hkept hdelay hquiet ⟨hstatus, hclosed⟩⟩, fun turn run => ?_⟩
  obtain ⟨hagrees, hordered⟩ := run.settled hkept hquiet
  cases hstatus : c.shared.status with
  | closed => cases hclosed.symm.trans (hagrees.closed.2 hstatus)
  | connecting => exact absurd hstatus (run.reachable.status_ne_connecting hkept hquiet)
  | opened =>
    obtain ⟨g, hg⟩ := Option.isSome_iff_exists.1 (hagrees.linked hstatus)
    exact .inl ⟨g, hg, hordered.sink g hg⟩
  | reconnecting => exact .inr (run.reachable.hasLoop hkept hdelay hquiet ⟨hstatus, hclosed⟩)

theorem quiet_of_all (h : (c.tasks.all fun x => !isBusy x) = true) : c.Quiet := by
  intro t x hx
  simpa using forall_task_of_all h t x hx

/-- A connect opens the link, its receiver loses it and takes it down, and the reconnect task that
it starts dials again. -/
def reopening : List Move :=
  connecting 0 ++ .step 1 (.frame .ended) :: List.replicate 10 (.step 1 .run) ++
    [.step 3 .run, .step 3 .run, .step 3 (.drawn .zero)]

theorem standard_reckonable : Config.standard.backoff.Reckonable := by
  unfold Config.standard
  exact Backoff.standard_reckonable

theorem open_client_has_link_or_loop_reopening : ∃ c, Cooperative .standard (some 3) c ∧
    c.IsKept ∧ c.Quiet ∧ c.shared.closed = false ∧ c.shared.link.installed = none ∧
    (c.HasLink ∨ c.HasLoop) := by
  have hrun : ((fresh .standard).run none reopening).any (fun r => r.1 = some 3 ∧
      (r.2.tasks.all fun x => !x.isDiscard) = true ∧ (r.2.tasks.all fun x => !isBusy x) = true ∧
      r.2.shared.closed = false ∧ r.2.shared.link.installed = none) = true := by
    decide +kernel
  obtain ⟨⟨turn, c⟩, hc, hfacts⟩ := Option.any_eq_true _ _ |>.1 hrun
  obtain ⟨rfl, hkept, hquiet, hclosed, hinstalled⟩ := of_decide_eq_true hfacts
  have run : Cooperative .standard (some 3) c := .continues .fresh (continues_run hc)
  exact ⟨c, run, isKept_of_all hkept, quiet_of_all hquiet, hclosed, hinstalled,
    (open_client_has_link_or_loop standard_reckonable (isKept_of_all hkept)
      (quiet_of_all hquiet) hclosed).2 _ run⟩

/-- The client has not been closed, and nothing in progress will give it its link. -/
def IsAbandoned (c : Client) : Prop :=
  c.IsKept ∧ c.Quiet ∧ c.shared.closed = false ∧ ¬c.HasLink ∧ ¬c.HasLoop

theorem isAbandoned_of_all
    (h : (c.tasks.all fun x => !x.isDiscard && !isBusy x && !isLoop x) = true)
    (hclosed : c.shared.closed = false) (hinstalled : c.shared.link.installed = none) :
    c.IsAbandoned := by
  have hall (t : TaskId) (x : Task) (hx : c.tasks[t]? = some x) :
      x.isDiscard = false ∧ isBusy x = false ∧ isLoop x = false := by
    simpa [and_assoc] using forall_task_of_all h t x hx
  refine ⟨fun t p ht => ?_, fun t x hx => (hall t x hx).2.1, hclosed, ?_, ?_⟩
  · cases (hall t _ ht).1
  · rintro ⟨g, hg, -⟩
    cases hinstalled.symm.trans hg
  · rintro ⟨t, x, hx, hloop⟩
    cases (hall t x hx).2.2.symm.trans hloop

/-- The new link is lost as soon as it is installed. Its receiver finds the mark still set; then the
opening comes to its end, and the reconnect task finds the client open. -/
def relapse : List Move :=
  .step 3 .elapsed :: List.replicate 5 (.step 3 .run) ++
    .step 3 (.upgraded (some Protocol.subprotocol)) :: List.replicate 2 (.step 3 .run) ++
    .step 4 (.frame .ended) :: List.replicate 9 (.step 4 .run) ++ List.replicate 5 (.step 3 .run)

/-- All delays are the longest span, which as a number of seconds is out of range. -/
def endless : Backoff :=
  ⟨⟨Duration.limit - 1, by decide⟩, ⟨Duration.limit - 1, by decide⟩, .ofNat 2, .zero⟩

/-- A link that is lost before its opening has published it is not opened again; nor is any lost
link if the delay before the first attempt cannot be computed. -/
theorem lost_links_abandon_client : (∃ c, Reachable .standard c ∧ c.IsAbandoned) ∧
    ∃ turn c, Cooperative { Config.standard with backoff := endless } turn c ∧ c.IsAbandoned := by
  have hrelapse : ((fresh .standard).follow (reopening ++ relapse)).any (fun c =>
      (c.tasks.all fun x => !x.isDiscard && !isBusy x && !isLoop x) = true ∧
      c.shared.closed = false ∧ c.shared.link.installed = none) = true := by
    decide +kernel
  have hendless : ((fresh { Config.standard with backoff := endless }).run none reopening).any
      (fun r => (r.2.tasks.all fun x => !x.isDiscard && !isBusy x && !isLoop x) = true ∧
        r.2.shared.closed = false ∧ r.2.shared.link.installed = none) = true := by
    decide +kernel
  obtain ⟨c, hc, hfacts⟩ := Option.any_eq_true _ _ |>.1 hrelapse
  obtain ⟨htasks, hclosed, hinstalled⟩ := of_decide_eq_true hfacts
  obtain ⟨⟨turn, c'⟩, hc', hfacts'⟩ := Option.any_eq_true _ _ |>.1 hendless
  obtain ⟨htasks', hclosed', hinstalled'⟩ := of_decide_eq_true hfacts'
  exact ⟨⟨c, reachable_iff_follow.2 ⟨_, hc⟩, isAbandoned_of_all htasks hclosed hinstalled⟩,
    turn, c', .continues .fresh (continues_run hc'),
    isAbandoned_of_all htasks' hclosed' hinstalled'⟩

end Client
end DuplexRpc
