import DuplexRpc.Proofs.Client.Links

/-!
The link of a receiver. Replies go to whatever sink is in the slot, so they stay on the link of
their request as long as no other link is installed while its receiver is at work. In an orderly run
a receiver belongs to the link, or to a close that waits for its end.
-/
namespace DuplexRpc

/-- The receiver has not begun to take its generation out. -/
def ReceivePhase.attends : ReceivePhase → Bool
  | idle | handling _ _ | replying _ _ | disconnecting .detach => true
  | _ => false

/-- The tasks that a close waits for. -/
def ClosePhase.joins : ClosePhase → List TaskId
  | publish d | signal d => d.tasks
  | request tasks | lock tasks | shaking _ tasks | joining tasks => tasks
  | _ => []

def Task.joins : Task → List TaskId
  | connect (.closing _ p) | connect (.failing p _) => p.joins
  | close (some p) => p.joins
  | _ => []

namespace Client

variable {config : Config} {c c' c₁ : Client} {t u v : TaskId} {choice : Choice}
  {turn : Option TaskId} {task task' x : Task} {g g' : Generation} {p p' : ReceivePhase}

/-- The receiver belongs to the link, or to a close that has taken the link out and waits for it. -/
def Owned (c : Client) (u : TaskId) (g : Generation) : Prop :=
  (c.shared.link.installed = some g ∧ c.shared.link.receiver = some u) ∨
    (c.Gone g ∧ ∃ (v : TaskId) (x : Task), c.tasks[v]? = some x ∧ u ∈ x.joins)

@[simp] theorem CloseFrame.joins_phase (f : CloseFrame) (p : ClosePhase) :
    (f.next (.phase p)).joins = p.joins := by
  cases f <;> rfl

@[simp] theorem OpenFrame.joins_phase (f : OpenFrame) (p : OpenPhase) :
    (f.next (.phase p)).joins = [] := by
  cases f <;> rfl

/-- A close goes on to wait for whoever is not over. -/
theorem CloseStep.joins {p : ClosePhase} {next : Next ClosePhase Unit}
    (h : CloseStep c t p c₁ next) (hu : u ∈ p.joins) (hundone : c.isDone u = false) :
    ∃ p', next = .phase p' ∧ u ∈ p'.joins := by
  cases h with
  | mark | bump | detach | fail => cases hu
  | take tasks held =>
    refine ⟨_, rfl, ?_⟩
    cases c.shared.outbound.sink <;> exact hu
  | join task tasks h =>
    obtain rfl | hu := List.mem_cons.1 hu
    · cases h.symm.trans hundone
    · exact ⟨_, rfl, hu⟩
  | joined => cases hu
  | _ => exact ⟨_, rfl, hu⟩

theorem TaskStep.joins (h : TaskStep c t choice task c₁ task') (hu : u ∈ task.joins)
    (hundone : c.isDone u = false) : u ∈ task'.joins := by
  cases h with
  | closing f h =>
    obtain ⟨p', rfl, hu⟩ := h.joins (by simpa using hu) hundone
    simpa using hu
  | opening f h => simp at hu
  | calling f h => cases f <;> cases hu
  | starting f h => cases f <;> cases hu
  | connect h => cases h <;> cases hu
  | _ => cases hu

theorem isDone_of_attends (hu : c.tasks[u]? = some (.receive g p)) (hp : p.attends = true) :
    c.isDone u = false := by
  rw [isDone, hu]
  cases p <;> first | rfl | cases hp

/-- Who attends to a link has done so before. -/
theorem TaskStep.attends (h : TaskStep c t choice task c₁ (.receive g p'))
    (hp' : p'.attends = true) : ∃ p, task = .receive g p ∧ p.attends = true := by
  obtain ⟨p, rfl, hstep⟩ := h.receiver
  refine ⟨p, rfl, ?_⟩
  cases hstep with
  | receive hreceive => cases hreceive <;> rfl
  | reply response hsend => rfl
  | pass hpass => cases hpass <;> cases hp'
  | @start _ next h => cases next <;> cases hp'

/-- A close that waits for somebody has closed the client. -/
theorem closed_of_joins {s : Shared} {l : List Stake} {calm : Prop} (hu : u ∈ x.joins)
    (hrest : rests x = true) (hx : x.Fits s l calm) : s.closed = true := by
  cases x with
  | connect p =>
    cases p with
    | closing url p | failing p failure =>
      cases p with
      | lock tasks => exact hx
      | shaking g tasks | joining tasks => exact hx.1
      | mark => cases hu
      | _ => cases hrest
    | _ => cases hu
  | close p =>
    cases p with
    | none => cases hu
    | some p =>
      cases p with
      | lock tasks => exact hx
      | shaking g tasks | joining tasks => exact hx.1
      | mark => cases hu
      | _ => cases hrest
  | _ => cases hu

def Owners (c : Client) : Prop :=
  ∀ (u : TaskId) g p, c.tasks[u]? = some (.receive g p) → p.attends = true → c.Owned u g

/-- When a new link is installed, nobody attends to an old one. -/
theorem Scene.not_owned {f : OpenFrame} (scene : Scene config c t (f.next (.phase .lock)))
    (hcurrent : c.isStale f.epoch = false) : ¬c.Owned u g := by
  rintro (⟨hinstalled, -⟩ | ⟨-, v, x, hv, hu⟩)
  · have hepoch : f.epoch = c.shared.epoch := epoch_eq_of_not_isStale (by simp [hcurrent])
    have hearly : f.Early c.shared c.stakes :=
      (f.fits_phase .lock).1 (scene.inOrder.fits t _ scene.present)
    have hagrees : c.shared.Agrees := (f.agrees_next (.phase .lock)).1 scene.agrees
    cases (hearly.unlinked hagrees hepoch).symm.trans hinstalled
  · have hvt : v ≠ t := by
      rintro rfl
      cases hv.symm.trans scene.present
      simp at hu
    have hclosed := closed_of_joins hu (scene.others hvt hv) (scene.inOrder.fits v x hv)
    cases (Bool.or_eq_false_iff.1 hcurrent).1.symm.trans hclosed

/-- A receiver goes from the link to the close that takes the link out, and from there only to its
own end. -/
theorem Owned.step (h : c.Owned u g) (scene : Scene config c t task)
    (hstep : TaskStep c t choice task c₁ task') (hages : c.shared.Ages c₁.shared)
    (howners : c.Owners) (hundone : c.isDone u = false)
    (hattends : u = t → ∃ p, task' = .receive g p ∧ p.attends = true) :
    Owned ⟨c₁.shared, c₁.tasks.set t task'⟩ u g := by
  have hd := scene.kept.not_discard scene.present
  have hgrows := hstep.grows hd
  have hnumbered := scene.reachable.numbered scene.kept
  obtain ⟨hinstalled, hreceiver⟩ | ⟨hgone, v, x, hv, hu⟩ := h
  · cases hstep.link hd with
    | still installed generation receiver =>
      exact .inl ⟨installed.trans hinstalled, receiver.trans hreceiver⟩
    | install f p hcurrent =>
      exact absurd (.inl ⟨hinstalled, hreceiver⟩) (scene.not_owned hcurrent)
    | detach f installed generation =>
      refine .inr ⟨⟨?_, by simp [installed]⟩, t, _,
        getElem?_stepped hgrows (List.getElem?_eq_some_iff.1 scene.present).1, ?_⟩
      · exact Nat.le_trans (Nat.le_of_eq (hnumbered.installed g hinstalled)) hages.generation
      · simp [ClosePhase.joins, detach, tasksOf, hreceiver]
    | @pass g₀ old hold hcurrent =>
      by_cases hut : u = t
      · obtain ⟨p, heq, hp⟩ := hattends hut
        cases heq
        cases hp
      · -- the pass of a receiver takes out its own generation
        obtain ⟨-, hself⟩ | ⟨hgone, -⟩ := howners t _ _ scene.present rfl
        · exact absurd (Option.some.inj (hreceiver.symm.trans hself)) hut
        · have hold' : c.shared.link.installed = some g₀ := by
            rw [hold, hnumbered.installed old hold, hcurrent]
          exact absurd hold' hgone.2
  · refine .inr ⟨hgone.ages hages, ?_⟩
    by_cases hvt : v = t
    · subst hvt
      cases hv.symm.trans scene.present
      exact ⟨v, task', getElem?_stepped hgrows (List.getElem?_eq_some_iff.1 hv).1,
        hstep.joins hu hundone⟩
    · exact ⟨v, x, getElem?_other hgrows hv hvt, hu⟩

theorem Owners.step (h : c.Owners) (scene : Scene config c t task)
    (hstep : TaskStep c t choice task c₁ task') (hages : c.shared.Ages c₁.shared) :
    Owners ⟨c₁.shared, c₁.tasks.set t task'⟩ := by
  intro u g p hu hp
  have hd := scene.kept.not_discard scene.present
  obtain ⟨rfl, rfl⟩ | ⟨hut, hu'⟩ := cases_set hu
  · obtain ⟨q, rfl, hq⟩ := hstep.attends hp
    exact (h u g q scene.present hq).step scene hstep hages h
      (isDone_of_attends scene.present hq) fun _ => ⟨p, rfl, hp⟩
  · have hstays (hu : c.tasks[u]? = some (.receive g p)) :=
      (h u g p hu hp).step scene hstep hages h (isDone_of_attends hu hp) (absurd · hut)
    cases hstep.link hd with
    | still installed generation receiver sink receivers => exact hstays (receivers u g p hu')
    | install f q hcurrent installed generation receiver sink receivers =>
      obtain hu | ⟨rfl, rfl⟩ := receivers u g p hu'
      · exact hstays hu
      · exact .inl ⟨installed, receiver⟩
    | detach f installed generation sink tasks => exact hstays (tasks ▸ hu')
    | pass hold hcurrent installed generation sink tasks => exact hstays (tasks ▸ hu')

theorem Orderly.owners (run : Orderly config turn c) : c.Owners := by
  induction run with
  | fresh => intro u g p hu; cases hu
  | @move turn c c' m before permitted keeps h ih =>
    have hages := apply_ages h
    cases apply_cases h with
    | start request =>
      intro u g p hu hp
      obtain hu | hx := cases_spawn hu
      · obtain hlink | ⟨hgone, v, x, hv, hmem⟩ := ih u g p hu hp
        · exact .inl hlink
        · exact .inr ⟨hgone, v, x, getElem?_of_outer h nofun hv, hmem⟩
      · cases request <;> cases hx
    | register method handler registry | cancel token => exact ih
    | step ht hstep => exact ih.step (Orderly.scene before keeps ht) hstep hages

/-- The sinks that receivers find, write to and have written to stand in this relation to their own
generations. -/
structure Aimed (R : Generation → Generation → Prop) (c : Client) : Prop where
  sink : ∀ (u : TaskId) g p s, c.tasks[u]? = some (.receive g p) → p.attends = true →
    c.shared.outbound.sink = some s → R g s
  writing : ∀ (u : TaskId) g response s,
    c.tasks[u]? = some (.receive g (.replying response (.writing s))) → R g s
  sent : ∀ e ∈ c.shared.sent, ∃ x, c.tasks[e.writer]? = some x ∧
    ∀ g, x.kind = .receive g → R g e.generation

variable {R : Generation → Generation → Prop}

theorem replying_of_writing (h : (Task.receive g p).writing? = some g') :
    ∃ response, p = .replying response (.writing g') := by
  cases p with
  | replying response q =>
    cases q <;> cases h
    exact ⟨response, rfl⟩
  | _ => cases h

/-- The relation is kept by every step, if a link is installed only when its number stands in the
relation to the receivers there are. -/
theorem Aimed.step (h : c.Aimed R) (hrefl : ∀ g, R g g) (hstep : TaskStep c t choice task c₁ task')
    (ht : c.tasks[t]? = some task) (hd : task.isDiscard = false)
    (hinstall : ∀ f : OpenFrame, task = f.next (.phase .lock) → c.isStale f.epoch = false →
      ∀ (u : TaskId) g p, c.tasks[u]? = some (.receive g p) → p.attends = true →
        R g (c.shared.link.generation + 1)) :
    Aimed R ⟨c₁.shared, c₁.tasks.set t task'⟩ := by
  have hgrows := hstep.grows hd
  refine ⟨fun u g p s hu hp hs => ?_, fun u g response s hu => ?_, fun e he => ?_⟩
  · have hold : (∃ q, c.tasks[u]? = some (.receive g q) ∧ q.attends = true) ∨
        c₁.tasks[u]? = some (.receive g p) := by
      obtain ⟨rfl, rfl⟩ | ⟨-, hu⟩ := cases_set hu
      · obtain ⟨q, rfl, hq⟩ := hstep.attends hp
        exact .inl ⟨q, ht, hq⟩
      · exact .inr hu
    have hstays (hsame : c.shared.outbound.sink = some s)
        (hold : (∃ q, c.tasks[u]? = some (.receive g q) ∧ q.attends = true) ∨
          c.tasks[u]? = some (.receive g p)) : R g s := by
      obtain ⟨q, hu, hq⟩ | hu := hold
      · exact h.sink u g q s hu hq hsame
      · exact h.sink u g p s hu hp hsame
    cases hstep.link hd with
    | still installed generation receiver sink receivers =>
      exact hstays (sink s hs) (hold.imp_right (receivers u g p))
    | install f q hcurrent installed generation receiver sink receivers =>
      cases hs.symm.trans sink
      obtain ⟨q, hu, hq⟩ | hu := hold
      · exact hinstall f rfl hcurrent u g q hu hq
      · obtain hu | ⟨-, rfl⟩ := receivers u g p hu
        · exact hinstall f rfl hcurrent u g p hu hp
        · exact hrefl _
    | detach f installed generation sink tasks =>
      exact hstays (sink ▸ hs) (tasks ▸ hold)
    | pass hold' hcurrent installed generation sink tasks =>
      exact hstays (sink ▸ hs) (tasks ▸ hold)
  · obtain ⟨rfl, rfl⟩ | ⟨-, hu⟩ | ⟨-, -, hnew⟩ := hgrows.cases_task hu
    · obtain ⟨q, rfl, hq⟩ := hstep.attends rfl
      exact h.sink u g q s ht hq (hstep.writing rfl)
    · exact h.writing u g response s hu
    · cases hnew.1
  · have hself : (c₁.tasks.set t task')[t]? = some task' :=
      getElem?_stepped hgrows (List.getElem?_eq_some_iff.1 ht).1
    obtain he | ⟨hwriter, hwriting⟩ := hstep.cases_sent hd he
    · obtain ⟨x, hx, haim⟩ := h.sent e he
      by_cases hwriter : e.writer = t
      · rw [hwriter] at hx ⊢
        cases hx.symm.trans ht
        exact ⟨task', hself, fun g hg => haim g (hstep.kind ▸ hg)⟩
      · exact ⟨x, getElem?_other hgrows hx hwriter, haim⟩
    · refine ⟨task', hwriter ▸ hself, fun g hg => ?_⟩
      obtain ⟨p, rfl⟩ := exists_receive_of_kind (hstep.kind.symm.trans hg)
      obtain ⟨response, rfl⟩ := replying_of_writing hwriting
      exact h.writing t g response _ ht

theorem Aimed.spawn (h : c.Aimed R) (request : Request) : (c.spawn request.task).Aimed R := by
  have hold {u : TaskId} {g : Generation} {p : ReceivePhase}
      (hu : (c.spawn request.task).tasks[u]? = some (.receive g p)) :
      c.tasks[u]? = some (.receive g p) := by
    obtain hu | hx := cases_spawn hu
    · exact hu
    · cases request <;> cases hx
  refine ⟨fun u g p s hu => h.sink u g p s (hold hu),
    fun u g response s hu => h.writing u g response s (hold hu), fun e he => ?_⟩
  obtain ⟨x, hx, haim⟩ := h.sent e he
  exact ⟨x, getElem?_of_outer (m := .start request) rfl nofun hx, haim⟩

/-- In any interleaving, what a receiver writes to is of no earlier link than its own. -/
theorem Reachable.aimed (run : Reachable config c) (hkept : c.IsKept) : c.Aimed (· ≤ ·) := by
  induction run with
  | fresh =>
    exact ⟨fun u g p s hu => (by cases hu), fun u g response s hu => (by cases hu), nofun⟩
  | @move c c' m before h ih =>
    have hkept' := hkept.before h
    have haimed := ih hkept'
    cases apply_cases h with
    | start request => exact haimed.spawn request
    | register method handler registry | cancel token =>
      exact ⟨haimed.sink, haimed.writing, haimed.sent⟩
    | step ht hstep =>
      exact haimed.step Nat.le_refl hstep ht (hkept'.not_discard ht) fun f _ _ u g p hu _ =>
        Nat.le_succ_of_le ((before.numbered hkept').receivers u g p hu)

/-- In an orderly run it is its own. -/
theorem Orderly.aimed (run : Orderly config turn c) : c.Aimed Eq := by
  induction run with
  | fresh =>
    exact ⟨fun u g p s hu => (by cases hu), fun u g response s hu => (by cases hu), nofun⟩
  | @move turn c c' m before permitted keeps h ih =>
    cases apply_cases h with
    | start request => exact ih.spawn request
    | register method handler registry | cancel token => exact ⟨ih.sink, ih.writing, ih.sent⟩
    | step ht hstep =>
      have scene := Orderly.scene before keeps ht
      refine ih.step (fun _ => rfl) hstep ht (scene.kept.not_discard ht)
        fun f hf hcurrent u g p hu hp => ?_
      subst hf
      exact absurd (Orderly.owners before u g p hu hp) (scene.not_owned hcurrent)

/-- Replies stay on their link. In any interleaving a reply goes to no earlier link than that of its
request. In an orderly run it goes to that link only, and a receiver that does not find its own sink
in the slot drops its reply. -/
theorem replies_stay_on_link :
    (Reachable config c → c.IsKept → ∀ e ∈ c.shared.sent, ∀ g p,
      c.tasks[e.writer]? = some (.receive g p) → g ≤ e.generation) ∧
    ∀ turn, Orderly config turn c →
      (∀ e ∈ c.shared.sent, ∀ g p,
        c.tasks[e.writer]? = some (.receive g p) → e.generation = g) ∧
      ∀ (u : TaskId) g response c', c.tasks[u]? = some (.receive g (.replying response .lock)) →
        c.shared.outbound.sink ≠ some g → c.step u .run = some c' →
        c'.tasks[u]? = some (.receive g .idle) ∧ c'.shared.sent = c.shared.sent := by
  have haim {R : Generation → Generation → Prop} (h : c.Aimed R) (e : Sent)
      (he : e ∈ c.shared.sent) (g : Generation) (p : ReceivePhase)
      (ht : c.tasks[e.writer]? = some (.receive g p)) : R g e.generation := by
    obtain ⟨x, hx, haim⟩ := h.sent e he
    cases hx.symm.trans ht
    exact haim g rfl
  refine ⟨fun run hkept => haim (run.aimed hkept), fun turn run => ?_⟩
  have haimed := Orderly.aimed run
  refine ⟨fun e he g p ht => (haim haimed e he g p ht).symm, fun u g response c' hu hne hstep => ?_⟩
  have hsink : c.shared.outbound.sink = none := by
    cases hs : c.shared.outbound.sink with
    | none => rfl
    | some s => exact absurd (hs.trans (haimed.sink u g _ s hu rfl hs ▸ rfl)) hne
  obtain ⟨task, c₁, task', ht, htask, rfl⟩ := step_eq_some_iff.1 hstep
  cases hu.symm.trans ht
  have hlt := Nat.lt_of_lt_of_le (List.getElem?_eq_some_iff.1 ht).1 (taskStep_evolves htask).length
  by_cases hheld : c.holds u = true
  · simp only [taskStep, receiveStep, sendStep, hheld, hsink, Bool.not_true] at htask
    cases htask
    exact ⟨List.getElem?_set_self hlt, rfl⟩
  · simp [taskStep, receiveStep, sendStep, hheld] at htask

/-- A request for the handler of the method `m`. -/
def serverRequest : Frame :=
  .text "\x7b\"jsonrpc\":\"2.0\",\"id\":\"s1\",\"method\":\"m\"\x7d"

/-- A connect, and a request that the handler answers. A second one is at its handler when a close
takes the link out and waits for the receiver. -/
def servingAClose : List Move :=
  .register "m" .echo :: connecting 0 ++
    [.step 1 (.frame serverRequest), .step 1 .settled, .step 1 .run, .step 1 .run,
      .step 1 (.written none), .step 1 (.frame serverRequest), .start .close] ++
    List.replicate 7 (.step 3 .run) ++ [.step 3 (.written none)]

/-- The link for whose request the task sends a reply, and how far it is with that. -/
def replying? (c : Client) (t : TaskId) : Option (Generation × SendPhase) :=
  match c.tasks[t]? with
  | some (.receive g (.replying _ p)) => some (g, p)
  | _ => none

theorem replying_of_replying? {p : SendPhase} (h : c.replying? t = some (g, p)) :
    ∃ response, c.tasks[t]? = some (.receive g (.replying response p)) := by
  unfold replying? at h
  split at h
  next g' response p' ht =>
    cases h
    exact ⟨response, ht⟩
  next => cases h

theorem replies_stay_on_link_closing : ∃ c c', Orderly .standard (some 1) c ∧
    (∃ e ∈ c.shared.sent, e.writer = 1 ∧ e.generation = 2) ∧
    (∃ response, c.tasks[1]? = some (.receive 2 (.replying response .lock))) ∧
    c.shared.outbound.sink ≠ some 2 ∧ c.step 1 .run = some c' ∧
    c'.tasks[1]? = some (.receive 2 .idle) ∧ c'.shared.sent = c.shared.sent := by
  have hrun : ((fresh .standard).runOrderly none
      (servingAClose ++ [.step 1 .settled, .step 1 .run])).any (fun r => (r.2.step 1 .run).any
        fun _ => r.1 = some 1 ∧ r.2.replying? 1 = some (2, .lock) ∧
          (r.2.shared.sent.any fun e => e.writer = 1) = true ∧
          r.2.shared.outbound.sink ≠ some 2) = true := by
    decide +kernel
  obtain ⟨⟨turn, c⟩, hc, hrun⟩ := Option.any_eq_true _ _ |>.1 hrun
  obtain ⟨c', hc', hfacts⟩ := Option.any_eq_true _ _ |>.1 hrun
  obtain ⟨rfl, hreplying, hsent, hsink⟩ := of_decide_eq_true hfacts
  have run : Orderly .standard (some 1) c := .of_run .fresh hc
  obtain ⟨response, ht⟩ := replying_of_replying? hreplying
  obtain ⟨e, he, hwriter⟩ := List.any_eq_true.1 hsent
  replace hwriter : e.writer = 1 := of_decide_eq_true hwriter
  obtain ⟨hstay, hdrop⟩ := (replies_stay_on_link (c := c)).2 _ run
  exact ⟨c, c', run, ⟨e, he, hwriter, hstay e he 2 _ (hwriter ▸ ht)⟩, ⟨response, ht⟩, hsink, hc',
    hdrop 1 2 response c' ht hsink hc'⟩

/-- While that close waits, another connect opens the next link, and then the handler is done. -/
def straying : List Move :=
  connecting 4 ++ [.step 1 .settled, .step 1 .run, .step 1 .run, .step 1 (.written none)]

/-- A reply to a request of the second generation that is written to the sink of the fifth. -/
theorem reply_strays_to_later_link : ∃ c e, Cooperative .standard (some 1) c ∧ c.IsKept ∧
    e ∈ c.shared.sent ∧ c.tasks[e.writer]? = some (.receive 2 .idle) ∧ e.generation = 5 ∧
    c.shared.link.installed = some 5 := by
  have hrun : ((fresh .standard).run none (servingAClose ++ straying)).any (fun r => r.1 = some 1 ∧
      (r.2.tasks.all fun x => !x.isDiscard) = true ∧
      (r.2.shared.sent.any fun e => (r.2.tasks[e.writer]?).bind Task.reading? = some 2 ∧
        e.generation = 5) = true ∧ r.2.shared.link.installed = some 5) = true := by
    decide +kernel
  obtain ⟨⟨turn, c⟩, hc, hfacts⟩ := Option.any_eq_true _ _ |>.1 hrun
  obtain ⟨rfl, hkept, hsent, hinstalled⟩ := of_decide_eq_true hfacts
  obtain ⟨e, he, hfacts⟩ := List.any_eq_true.1 hsent
  obtain ⟨hreading, hgeneration⟩ := of_decide_eq_true hfacts
  exact ⟨c, e, .continues .fresh (continues_run hc), isKept_of_all hkept, he,
    idle_of_reading? hreading, hgeneration, hinstalled⟩

end Client
end DuplexRpc
