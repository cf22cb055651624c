import DuplexRpc.Proofs.Client.CallIds
import DuplexRpc.Proofs.Client.Completing
import DuplexRpc.Proofs.Client.Outcomes
import DuplexRpc.Proofs.Pending.Completions

/-!
Connects that fail. A text that names no web socket is refused before anything changes. If an
opening fails, the connect closes the client once more: it keeps the new endpoint, but neither a
link nor a call that waits. A task that was on its way to publish another status may do so after
that, unless the tasks switch at their waits only.
-/
namespace DuplexRpc

namespace PendingTable

variable {t t' : PendingTable} {n : Nat} {failure : Failure} {outcome : Outcome}

/-- A wholesale failure reaches exactly those that wait. -/
theorem Listed.slot?_failAll (h : t.Listed) :
    (t.failAll failure).2.slot? n =
      if t.slot? n = some .waiting then some (.answered (.error failure)) else t.slot? n := by
  rw [PendingTable.slot?_failAll]
  split
  next hmem =>
    cases hslot : t.slot? n with
    | none => rfl
    | some slot => cases slot <;> rfl
  next hmem => exact (if_neg fun hwaiting => hmem (h n hwaiting)).symm

/-- The registration does not wait any more, and nothing but this outcome can lie ready for it. -/
def HasHad (t : PendingTable) (n : Nat) (outcome : Outcome) : Prop :=
  ∃ slot, t.slot? n = some slot ∧ slot ≠ .waiting ∧
    ∀ other, slot = .answered other → other = outcome

theorem HasHad.step (h : t.HasHad n outcome) (op : Op) : (t.step op).1.HasHad n outcome := by
  obtain ⟨slot, hslot, hwaiting, hanswered⟩ := h
  obtain ⟨slot', hslot', hstep⟩ := slot?_step hslot op
  refine ⟨slot', hslot', ?_⟩
  cases hstep with
  | kept => exact ⟨hwaiting, hanswered⟩
  | dropped => exact ⟨nofun, nofun⟩
  | completed | abandoned | taken =>
    cases slot with
    | waiting => exact absurd rfl hwaiting
    | answered other =>
      cases hanswered other rfl
      exact ⟨nofun, by rintro _ ⟨⟩ <;> rfl⟩
    | _ => exact ⟨nofun, nofun⟩

theorem HasHad.leads (h : t.HasHad n outcome) (hleads : t.Leads t') : t'.HasHad n outcome :=
  Leads.induct (P := (HasHad · n outcome)) (fun _ op h => h.step op) hleads h

end PendingTable

/-- What a connect to an endpoint has done to the client by a phase, if nobody else connects. -/
def ConnectPhase.HasDone (url : Url) (s : Shared) : ConnectPhase → Prop
  | start target => Client.endpointOf target = .ok url
  | closing url' _ | setEndpoint url' => url' = url
  | failing p _ => s.link.endpoint = some url ∧ ClosePhase.HasShut s.lifecycle (some p)
  | done (.error _) => s.link.endpoint = some url ∧ ClosePhase.HasShut s.lifecycle none
  | _ => s.link.endpoint = some url

theorem ConnectPhase.HasDone.of_others {url : Url} {s s' : Shared} {p : ConnectPhase}
    (h : p.HasDone url s) (hendpoint : s'.link.endpoint = s.link.endpoint)
    (hshut : ∀ q, ClosePhase.HasShut s.lifecycle q → ClosePhase.HasShut s'.lifecycle q) :
    p.HasDone url s' := by
  cases p with
  | start target | closing url' q | setEndpoint url' => exact h
  | failing q failure => exact ⟨hendpoint.trans h.1, hshut _ h.2⟩
  | done result =>
    cases result with
    | ok _ => exact hendpoint.trans h
    | error failure => exact ⟨hendpoint.trans h.1, hshut _ h.2⟩
  | _ => exact hendpoint.trans h

/-- Where a call stands that is refused. -/
def CallPhase.IsRefused : CallPhase → Prop
  | start | checkSignal | readStatus => True
  | done outcome => outcome = some (.error .clientClosed)
  | _ => False

/-- How many steps such a call has before it. -/
def CallPhase.untilRefused : CallPhase → Nat
  | start => 3
  | checkSignal => 2
  | readStatus => 1
  | _ => 0

namespace Client

variable {config : Config} {c c' c₀ c₁ : Client} {t u : TaskId} {choice : Choice} {m : Move}
  {ms : List Move} {task task' x : Task} {target : Target} {url : Url} {failure : Failure}
  {turn turn' : Option TaskId} {spec : CallSpec}

/-- The text is blank, or the parser rejects it, or reads the URL of something else in it. -/
def IsRefused (target : Target) : Prop :=
  Text.isBlank target.text = true ∨ (∃ report, target.parsed = .error report) ∨
    ∃ url, target.parsed = .ok url ∧ url.scheme ≠ "ws" ∧ url.scheme ≠ "wss"

theorem IsRefused.endpointOf (h : IsRefused target) :
    ∃ failure, endpointOf target = .error failure := by
  unfold Client.endpointOf
  obtain hblank | ⟨report, hparse⟩ | ⟨url, hparse, hws, hwss⟩ := h
  · rw [if_pos hblank]
    exact ⟨_, rfl⟩
  · rw [hparse]
    split <;> exact ⟨_, rfl⟩
  · have hsocket : isWebSocket url = false := by simp [isWebSocket, hws, hwss]
    rw [hparse]
    simp only [hsocket]
    split <;> exact ⟨_, rfl⟩

theorem endpointOf_eq_ok_iff :
    endpointOf target = .ok url ↔ ¬IsRefused target ∧ target.parsed = .ok url := by
  constructor
  · intro h
    refine ⟨fun hrefused => ?_, ?_⟩
    · obtain ⟨failure, hfailure⟩ := hrefused.endpointOf
      cases hfailure.symm.trans h
    · unfold endpointOf at h
      split at h
      · cases h
      · split at h
        · cases h
        next url' hparse =>
          split at h <;> cases h
          exact hparse
  · rintro ⟨hrefused, hparse⟩
    have hblank : Text.isBlank target.text = false :=
      Bool.eq_false_iff.2 fun hblank => hrefused (.inl hblank)
    have hsocket : isWebSocket url = true := by
      by_contra hsocket
      refine hrefused (.inr (.inr ⟨url, hparse, ?_⟩))
      simpa [isWebSocket] using hsocket
    simp [endpointOf, hblank, hparse, hsocket]

/-- The only step of a refused connect ends it, and changes nothing else. -/
theorem step_refused (ht : c.tasks[t]? = some (.connect (.start target))) (h : IsRefused target) :
    ∃ failure, ∀ choice c', c.step t choice = some c' ↔
      choice = .run ∧ c' = ⟨c.shared, c.tasks.set t (.connect (.done (.error failure)))⟩ := by
  obtain ⟨failure, hfailure⟩ := h.endpointOf
  refine ⟨failure, fun choice c' => ?_⟩
  constructor
  · intro h
    obtain ⟨x, c₁, x', hx, hstep, rfl⟩ := step_eq_some_iff.1 h
    cases ht.symm.trans hx
    obtain ⟨⟨c₂, p'⟩, hconnect, heq⟩ := Option.map_eq_some_iff.1 hstep
    cases heq
    obtain ⟨rfl, ⟨url, hurl, -⟩ | ⟨failure', hfailure', rfl⟩⟩ := connectStep_start hconnect
    · cases hurl.symm.trans hfailure
    · cases hfailure'.symm.trans hfailure
      cases choice with
      | run => exact ⟨rfl, rfl⟩
      | _ => cases hconnect
  · rintro ⟨rfl, rfl⟩
    exact step_eq_some_iff.2 ⟨_, c, _, ht, by simp [taskStep, connectStep, hfailure], rfl⟩

theorem TaskStep.endpoint (h : TaskStep c t choice task c₁ task')
    (htask : task.role ≠ .connecting) : c₁.shared.link.endpoint = c.shared.link.endpoint :=
  h.keepsSettings.endpoint fun _ heq => htask (heq ▸ rfl)

/-- The task connects to the endpoint, and nobody else connects. -/
structure Dials (c : Client) (t : TaskId) (url : Url) : Prop where
  alone : ∀ (u : TaskId) x, c.tasks[u]? = some x → x.connects = true → u = t
  stage : ∃ p, c.tasks[t]? = some (.connect p) ∧ p.HasDone url c.shared

theorem IsUnconnected.dials (h : c.IsUnconnected) (hurl : endpointOf target = .ok url)
    (happly : c.apply (.start (.connect target)) = some c') : c'.Dials c.tasks.length url := by
  cases happly
  refine ⟨fun u x hu hx => ?_, _, List.getElem?_concat_length, hurl⟩
  obtain hu | ⟨rfl, -⟩ := cases_spawn_index hu
  · cases (h u x hu).symm.trans hx
  · rfl

/-- The own steps of a connect. -/
theorem hasDone_of_connectStep {p p' : ConnectPhase} (h : p.HasDone url c.shared)
    (hstep : c.connectStep t choice p = some (c₁, p')) : p'.HasDone url c₁.shared := by
  have hendpoint (hrole : (Task.connect p).role ≠ .connecting) :
      c₁.shared.link.endpoint = c.shared.link.endpoint :=
    (connectStep_cases hstep).endpoint hrole
  cases p with
  | start target =>
    obtain ⟨-, ⟨url', hurl, rfl⟩ | ⟨failure, hfailure, rfl⟩⟩ := connectStep_start hstep
    · cases hurl.symm.trans h
      rfl
    · cases hfailure.symm.trans h
  | closing url' q =>
    obtain ⟨⟨c₂, next⟩, -, heq⟩ := Option.map_eq_some_iff.1 hstep
    cases next <;> cases heq <;> exact h
  | opening epoch q =>
    have hendpoint := hendpoint nofun
    obtain ⟨⟨c₂, next⟩, -, heq⟩ := Option.map_eq_some_iff.1 hstep
    rcases next with q' | ⟨failure | _⟩ <;> cases heq
    · exact hendpoint.trans h
    · exact ⟨hendpoint.trans h, trivial⟩
    · exact hendpoint.trans h
  | failing q failure =>
    have hendpoint := hendpoint nofun
    obtain ⟨⟨c₂, next⟩, hclose, heq⟩ := Option.map_eq_some_iff.1 hstep
    have hshut := (closeStep_cases hclose).hasShut h.2
    cases next <;> cases heq <;> exact ⟨hendpoint.trans h.1, hshut⟩
  | done result => cases hstep
  | setEndpoint url' =>
    cases choice with
    | run =>
      cases hstep
      exact congrArg some h
    | _ => cases hstep
  | _ =>
    cases choice with
    | run =>
      cases hstep
      exact h
    | _ => cases hstep

theorem Dials.apply (h : c.Dials t url) (hm : m.connects = false)
    (happly : c.apply m = some c') : c'.Dials t url := by
  obtain ⟨halone, p, ht, hp⟩ := h
  refine ⟨fun u x hu hx => ?_, ?_⟩
  · obtain ⟨y, hy, hconnects⟩ := connects_of_apply happly hm hu hx
    exact halone u y hy hconnects
  · obtain ⟨hm, ht'⟩ | ⟨choice, c₁, p', rfl, hstep, hshared, ht'⟩ := connect_after_apply happly ht
    · refine ⟨p, ht', ?_⟩
      cases apply_cases happly with
      | @step u choice x x' c₁ hx hstep =>
        have hrole : x.role ≠ .connecting := by
          refine ne_connecting_of_connects ?_
          by_contra hx'
          cases halone u x hx (Bool.not_eq_false _ ▸ hx')
          exact hm choice rfl
        exact hp.of_others (hstep.endpoint hrole) fun q hq => hq.step hstep.lifecycle hrole
      | _ => exact hp.of_others rfl fun _ hq => hq
    · exact ⟨p', ht', hshared ▸ hasDone_of_connectStep hp hstep⟩

/-- The opening of a connect ends with the failure. -/
def FailsToOpen (c : Client) (t : TaskId) (choice : Choice) (failure : Failure) : Prop :=
  ∃ epoch p c₁, c.tasks[t]? = some (.connect (.opening epoch p)) ∧
    c.openStep t epoch choice p = some (c₁, .over (.error failure))

/-- The connect closes the client because of the failure, or is over with it. -/
def IsFailing (c : Client) (t : TaskId) (failure : Failure) : Prop :=
  ∃ next, c.tasks[t]? = some ((CloseFrame.failed failure).next next)

theorem FailsToOpen.failing (h : c.FailsToOpen t choice failure)
    (hstep : c.step t choice = some c') :
    c'.tasks[t]? = some (.connect (.failing .mark failure)) := by
  obtain ⟨epoch, p, c₁, ht, hopen⟩ := h
  obtain ⟨x, c₂, x', hx, hraw, rfl⟩ := step_eq_some_iff.1 hstep
  cases ht.symm.trans hx
  cases hraw.symm.trans (OpenFrame.taskStep (.connect epoch) hopen)
  exact (taskStep_cases hraw).getElem?_set_self ht

theorem IsFailing.apply (h : c.IsFailing t failure) (happly : c.apply m = some c') :
    c'.IsFailing t failure := by
  obtain ⟨next, ht⟩ := h
  obtain ht' | ⟨choice, q, c₁, next', -, -, -, -, ht'⟩ :=
    CloseFrame.after_apply (.failed failure) rfl ht happly
  · exact ⟨next, ht'⟩
  · exact ⟨next', ht'⟩

/-- The connect can always return. -/
theorem IsFailing.exists_advances (h : c.IsFailing t failure) (run : Reachable config c)
    (hkept : c.IsKept) :
    ∃ c', c.Advances c' ∧ c'.tasks[t]? = some (.connect (.done (.error failure))) := by
  obtain ⟨q | ⟨⟨⟩⟩, ht⟩ := h
  · obtain ⟨c₁, hadvances, ht₁⟩ := exists_advances_fail run hkept (.failed failure) ht
    have hlast : c₁.taskStep t .run ((CloseFrame.failed failure).next (.phase .fail)) =
        some (c₁.update Shared.failAll, (CloseFrame.failed failure).next (.over ())) :=
      CloseFrame.taskStep (.failed failure) rfl
    obtain ⟨c₂, hstep, ht₂, -⟩ := exists_step_of_taskStep ht₁ hlast
    exact ⟨c₂, .step hadvances rfl hstep, ht₂⟩
  · exact ⟨c, .here, ht⟩

/-- Its last step fails what waits. -/
theorem IsFailing.failAll (h : c.IsFailing t failure) (hstep : c.step t choice = some c')
    (hdone : c'.tasks[t]? = some (.connect (.done (.error failure)))) :
    c'.shared = c.shared.failAll := by
  obtain ⟨next, ht⟩ := h
  obtain ⟨x, c₁, x', hx, hraw, rfl⟩ := step_eq_some_iff.1 hstep
  cases ht.symm.trans hx
  rcases next with q | r
  · obtain ⟨next', rfl, hclose⟩ := (taskStep_cases hraw).closing_cases (.failed failure)
    have heq := (taskStep_cases hraw).getElem?_set_self ht
    cases hclose with
    | fail => rfl
    | _ => cases hdone.symm.trans heq
  · cases hraw

/-- A connect begins while nobody else is connecting, nobody else begins to, and its opening
fails. -/
structure HasFailed (c₀ : Client) (target : Target) (failure : Failure) (ms : List Move)
    (c : Client) : Prop where
  unconnected : c₀.IsUnconnected
  alone : ∀ m ∈ ms, m.connects = false
  follow : c₀.follow (.start (.connect target) :: ms) = some c
  fails : ∃ before choice after c₁, ms = before ++ .step c₀.tasks.length choice :: after ∧
    c₀.follow (.start (.connect target) :: before) = some c₁ ∧
    c₁.FailsToOpen c₀.tasks.length choice failure

theorem HasFailed.move (h : HasFailed c₀ target failure ms c) (hm : m.connects = false)
    (happly : c.apply m = some c') : HasFailed c₀ target failure (ms ++ [m]) c' := by
  obtain ⟨hunconnected, halone, hfollow, before, choice, after, c₁, rfl, hbefore, hfails⟩ := h
  refine ⟨hunconnected, fun m' hm' => ?_, follow_concat.2 ⟨c, hfollow, happly⟩, before, choice,
    after ++ [m], c₁, by simp, hbefore, hfails⟩
  obtain hm' | hm' := List.mem_append.1 hm'
  · exact halone m' hm'
  · exact List.mem_singleton.1 hm' ▸ hm

theorem dials_of_follow (hc : c₀.IsUnconnected) (hurl : endpointOf target = .ok url)
    (hms : ∀ m ∈ ms, m.connects = false)
    (h : c₀.follow (.start (.connect target) :: ms) = some c) : c.Dials c₀.tasks.length url := by
  obtain ⟨c₁, hstart, hfollow⟩ := follow_cons.1 h
  exact follow_induct_of_forall (P := (Dials · c₀.tasks.length url)) hms hfollow
    (hc.dials hurl hstart) fun _ _ _ hm happly hdials => hdials.apply hm happly

/-- Where the close because of the failure begins. -/
theorem HasFailed.begins (h : HasFailed c₀ target failure ms c) : ∃ before after c₁,
    ms = before ++ after ∧ c₀.follow (.start (.connect target) :: before) = some c₁ ∧
    c₁.tasks[c₀.tasks.length]? = some (.connect (.failing .mark failure)) ∧
    c₁.follow after = some c := by
  obtain ⟨before, choice, after, c₁, rfl, hbefore, hfails⟩ := h.fails
  have hfollow := h.follow
  rw [← List.cons_append, follow_append, hbefore] at hfollow
  obtain ⟨c₂, hstep, hafter⟩ := follow_cons.1 hfollow
  refine ⟨before ++ [.step c₀.tasks.length choice], after, c₂, by simp, ?_, hfails.failing hstep,
    hafter⟩
  exact follow_concat.2 ⟨c₁, hbefore, hstep⟩

theorem HasFailed.isFailing (h : HasFailed c₀ target failure ms c) :
    c.IsFailing c₀.tasks.length failure := by
  obtain ⟨before, after, c₁, -, -, ht, hafter⟩ := h.begins
  exact follow_induct (P := fun _ => (IsFailing · c₀.tasks.length failure)) hafter
    ⟨.phase .mark, ht⟩ fun _ _ _ _ _ hfailing happly => hfailing.apply happly

/-- Every call that waits is told that the connection has closed, and nothing else ever; the other
ones are told nothing. -/
structure FailsWaiting (c c' : Client) : Prop where
  entries : c'.shared.pending.entries = []
  slot? : ∀ n, c'.shared.pending.slot? n =
    if c.shared.pending.slot? n = some .waiting then some (.answered (.error .connectionClosed))
    else c.shared.pending.slot? n
  once : ∀ n, c.shared.pending.slot? n = some .waiting → ∀ ms c₁, c'.follow ms = some c₁ →
    c₁.shared.pending.HasHad n (.error .connectionClosed)
  told : ∀ n, c.shared.pending.slot? n = some .waiting → ∀ (u : TaskId) spec,
    c'.tasks[u]? = some (.call spec (.awaitAnswer n)) →
      ∃ c₁, c'.steps u [.settled, .run] = some c₁ ∧
        c₁.tasks[u]? = some (.call spec (.done (some (.error .connectionClosed))))

theorem leads_of_follow (h : c.follow ms = some c') :
    c.shared.pending.Leads c'.shared.pending :=
  follow_induct (P := fun _ c' => c.shared.pending.Leads c'.shared.pending) h (.refl _)
    fun _ _ _ _ _ ih happly => ih.trans (apply_ages happly).pending

theorem failsWaiting_of_failAll (run : Reachable config c) (h : c'.shared = c.shared.failAll) :
    c.FailsWaiting c' := by
  have hslot (n : Nat) : c'.shared.pending.slot? n =
      if c.shared.pending.slot? n = some .waiting then
        some (.answered (.error .connectionClosed))
      else c.shared.pending.slot? n := by
    rw [h]
    exact run.sound_listed.2.slot?_failAll
  have hwaited (n : Nat) (hn : c.shared.pending.slot? n = some .waiting) :
      c'.shared.pending.slot? n = some (.answered (.error .connectionClosed)) :=
    (hslot n).trans (if_pos hn)
  refine ⟨by rw [h]; rfl, hslot, fun n hn ms c₁ hfollow => ?_, fun n hn u spec hu => ?_⟩
  · refine PendingTable.HasHad.leads ⟨_, hwaited n hn, nofun, ?_⟩ (leads_of_follow hfollow)
    rintro other ⟨⟩
    rfl
  · exact exists_steps_of_answered hu (hwaited n hn)

/-- Until somebody connects, a call that begins, with a method and without a cancelled signal, does
nothing but fail: it is over after three steps at most. -/
def RefusesCalls (c : Client) : Prop :=
  ∀ ms ms' c₁ c₂ spec, (∀ m ∈ ms ++ ms', m.connects = false) → c.follow ms = some c₁ →
    c₁.follow (.start (.call spec) :: ms') = some c₂ → Text.isBlank spec.method = false →
    c₂.signalled spec = false →
    noted (deeds c₁.tasks.length) c₁ (.start (.call spec) :: ms') = [] ∧
    (∀ outcome, c₂.tasks[c₁.tasks.length]? = some (.call spec (.done outcome)) →
      outcome = some (.error .clientClosed)) ∧
    ∃ n c₃, n ≤ 3 ∧ c₂.steps c₁.tasks.length (List.replicate n .run) = some c₃ ∧
      c₃.shared = c₂.shared ∧
      c₃.tasks[c₁.tasks.length]? = some (.call spec (.done (some (.error .clientClosed))))

section Refused

variable {p : CallPhase} {next : Next CallPhase (Option Outcome)}
  (hblank : Text.isBlank spec.method = false)

include hblank

theorem callStep_refused (hsignalled : c.signalled spec = false)
    (hstatus : c.shared.status = .closed) (hp : p.IsRefused)
    (h : c.callStep t spec choice p = some (c₁, next)) :
    c₁.shared = c.shared ∧ next.after.IsRefused := by
  cases p with
  | start =>
    obtain ⟨rfl, rfl⟩ := callStep_start h
    rw [hblank]
    exact ⟨rfl, trivial⟩
  | checkSignal =>
    obtain ⟨rfl, rfl⟩ := callStep_checkSignal h
    rw [hsignalled]
    exact ⟨rfl, trivial⟩
  | readStatus =>
    cases choice with
    | run =>
      cases h
      rw [hstatus]
      exact ⟨rfl, rfl⟩
    | _ => cases h
  | done outcome => cases h
  | _ => cases hp

theorem exists_steps_refused (hsignalled : c.signalled spec = false)
    (hstatus : c.shared.status = .closed) (hp : p.IsRefused)
    (ht : c.tasks[t]? = some (.call spec p)) :
    ∃ c', c.steps t (List.replicate p.untilRefused .run) = some c' ∧ c'.shared = c.shared ∧
      c'.tasks[t]? = some (.call spec (.done (some (.error .clientClosed)))) := by
  induction hn : p.untilRefused generalizing c p with
  | zero =>
    cases p with
    | done outcome => exact ⟨c, rfl, rfl, hp ▸ ht⟩
    | start | checkSignal | readStatus => cases hn
    | _ => cases hp
  | succ n ih =>
    obtain ⟨p', hstep, hp', hn'⟩ : ∃ p', c.taskStep t .run (.call spec p) =
        some (c, .call spec p') ∧ p'.IsRefused ∧ p'.untilRefused = n := by
      cases p with
      | start =>
        exact ⟨.checkSignal, by simp [taskStep, callStep, hblank], trivial, Nat.succ.inj hn⟩
      | checkSignal =>
        exact ⟨.readStatus, by simp [taskStep, callStep, hsignalled], trivial, Nat.succ.inj hn⟩
      | readStatus =>
        exact ⟨.done (some (.error .clientClosed)),
          by simp [taskStep, callStep, admission, hstatus], rfl, Nat.succ.inj hn⟩
      | _ => cases hn
    obtain ⟨c₁, hfirst, ht₁, hshared⟩ := exists_step_of_taskStep ht hstep
    have hsignalled₁ : c₁.signalled spec = false := by rwa [signalled, hshared]
    obtain ⟨c', hsteps, hshared', ht'⟩ := ih hsignalled₁ (hshared ▸ hstatus) hp' ht₁ hn'
    exact ⟨c', by simp [List.replicate_succ, steps, hfirst, hsteps], hshared'.trans hshared, ht'⟩

end Refused

/-- While nobody connects and the status stays that of a closed client, calls are refused. -/
theorem refusesCalls_of_not_mayReopen (h : ¬c.MayReopen) : c.RefusesCalls := by
  have hstatus (ms : List Move) (c' : Client) (hms : ∀ m ∈ ms, m.connects = false)
      (hfollow : c.follow ms = some c') : c'.shared.status = .closed :=
    by_contra fun hstatus => h ⟨ms, c', hms, hfollow, hstatus⟩
  intro ms ms' c₁ c₂ spec hms hbefore hafter hblank hsignalled
  obtain ⟨c₃, hstart, hcall⟩ := follow_cons.1 hafter
  have ht : c₃.tasks[c₁.tasks.length]? = some (.call spec .start) := by
    cases hstart
    exact List.getElem?_concat_length
  have hquiet (ms₁ : List Move) (c₄ : Client) (hpre : ms₁ <+: ms')
      (hfollow : c₃.follow ms₁ = some c₄) :
      c₄.shared.status = .closed ∧ c₄.signalled spec = false := by
    constructor
    · refine hstatus (ms ++ .start (.call spec) :: ms₁) c₄ (fun m hm => ?_) ?_
      · obtain hm | hm := List.mem_append.1 hm
        · exact hms m (List.mem_append_left _ hm)
        · obtain rfl | hm := List.mem_cons.1 hm
          · rfl
          · exact hms m (List.mem_append_right _ (hpre.subset hm))
      · rw [follow_append, hbefore]
        exact follow_cons.2 ⟨c₃, hstart, hfollow⟩
    · -- what is cancelled stays so
      obtain ⟨rest, rfl⟩ := hpre
      rw [follow_append, hfollow] at hcall
      cases hc₄ : c₄.signalled spec with
      | false => rfl
      | true => exact (signalled_of_follow hcall hc₄).symm.trans hsignalled
  obtain ⟨hnothing, p, hp, hrefused⟩ := deeds_of_confined (S := CallPhase.IsRefused)
    (Q := fun c => c.shared.status = .closed ∧ c.signalled spec = false) (fun p hp => by
      cases p <;> first | rfl | cases hp)
    (fun _ _ _ _ _ hq hp hstep => callStep_refused hblank hq.2 hq.1 hp hstep) hquiet ht trivial
    hcall
  refine ⟨?_, fun outcome hdone => ?_, ?_⟩
  · have hbegin : deeds c₁.tasks.length c₁ (.start (.call spec)) c₃ = [] := deeds_of_ne nofun
    rw [noted, hstart, Option.elim_some, hnothing, hbegin]
    rfl
  · cases hp.symm.trans hdone
    exact hrefused
  · obtain ⟨hclosed, -⟩ := hquiet ms' c₂ (List.prefix_refl _) hcall
    obtain ⟨c₄, hsteps, hshared, hdone⟩ :=
      exists_steps_refused hblank hsignalled hclosed hrefused hp
    refine ⟨p.untilRefused, c₄, ?_, hsteps, hshared, hdone⟩
    unfold CallPhase.untilRefused
    split <;> decide

/-- What a failed connect leaves when its last step returns. The status stays that of a closed
client exactly if it is so by then and nobody is about to publish another one. -/
structure LeavesClosed (c c' : Client) (url : Url) : Prop where
  closed : c'.shared.closed = true
  endpoint : c'.shared.link.endpoint = some url
  installed : c'.shared.link.installed = none
  tasks : c'.shared.link.receiver = none ∧ c'.shared.link.heart = none
  sink : c'.shared.outbound.sink = none
  calls : c.FailsWaiting c'
  lasts : ¬c'.MayReopen ↔ c'.shared.status = .closed ∧
    ∀ (t : TaskId) x, c'.tasks[t]? = some x → x.role.isPublishing = false
  refuses : ¬c'.MayReopen → c'.RefusesCalls

theorem Dials.unconnected {result : Except Failure Unit} (h : c.Dials t url)
    (ht : c.tasks[t]? = some (.connect (.done result))) : c.IsUnconnected := by
  intro u x hu
  by_contra hx
  obtain rfl := h.alone u x hu (Bool.not_eq_false _ ▸ hx)
  cases ht.symm.trans hu
  exact hx rfl

theorem Dials.undialed {next : Next ClosePhase Unit} (h : c.Dials t url)
    (ht : c.tasks[t]? = some ((CloseFrame.failed failure).next next)) : c.IsUndialed := by
  intro u x hu
  by_cases hx : x.connects = true
  · obtain rfl := h.alone u x hu hx
    cases ht.symm.trans hu
    cases next <;> exact nofun
  · exact ne_connecting_of_connects (by simpa using hx)

theorem Reachable.tasksOf_eq_nil (run : Reachable config c) (hkept : c.IsKept)
    (h : c.shared.link.installed = none) : tasksOf c.shared.link = [] := by
  refine List.eq_nil_iff_forall_not_mem.2 fun u hu => ?_
  obtain ⟨g, x, hg, -⟩ := (run.accounted hkept).link u hu
  cases h.symm.trans hg

theorem HasFailed.leavesClosed (h : HasFailed c₀ target failure ms c) (run : Reachable config c)
    (hkept : c.IsKept) (hurl : endpointOf target = .ok url)
    (hstep : c.step c₀.tasks.length choice = some c')
    (hdone : c'.tasks[c₀.tasks.length]? = some (.connect (.done (.error failure)))) :
    c.LeavesClosed c' url := by
  have happly : c.apply (.step c₀.tasks.length choice) = some c' := hstep
  have hdials := (dials_of_follow h.unconnected hurl h.alone h.follow).apply rfl happly
  obtain ⟨p, ht, hp⟩ := hdials.stage
  cases hdone.symm.trans ht
  obtain ⟨hendpoint, hshut⟩ := hp
  have hnone := List.filterMap_eq_nil_iff.1
    ((Reachable.move _ run happly).tasksOf_eq_nil (hkept.step hstep) hshut.installed)
  exact
    { closed := hshut.closed
      endpoint := hendpoint
      installed := hshut.installed
      tasks := ⟨hnone _ (.head _), hnone _ (.tail _ (.head _))⟩
      sink := hshut.sink
      calls := failsWaiting_of_failAll run (h.isFailing.failAll hstep hdone)
      lasts := not_mayReopen_iff (hdials.unconnected hdone) hshut.closed
      refuses := refusesCalls_of_not_mayReopen }

/-- If the tasks switch at their waits only, nobody publishes another status any more. -/
theorem HasFailed.not_mayReopen (h : HasFailed c₀ target failure ms c)
    (hurl : endpointOf target = .ok url) (run : Cooperative config turn c₀)
    (hrun : c₀.run turn (.start (.connect target) :: ms) = some (turn', c))
    (hdone : c.tasks[c₀.tasks.length]? = some (.connect (.done (.error failure)))) :
    ¬c.MayReopen := by
  obtain ⟨before, after, c₁, rfl, hbefore, ht, -⟩ := h.begins
  rw [← List.cons_append, run_append] at hrun
  obtain ⟨⟨turn₁, c₂⟩, hrun₁, hrun₂⟩ := Option.bind_eq_some_iff.1 hrun
  obtain rfl : c₂ = c₁ := Option.some.inj ((follow_of_run hrun₁).symm.trans hbefore)
  have hdials := dials_of_follow h.unconnected hurl
    (fun m hm => h.alone m (List.mem_append_left _ hm)) hbefore
  obtain ⟨-, hdials, next, ht, hreported⟩ := run_induct (P := fun turn c =>
      Cooperative config turn c ∧ c.Dials c₀.tasks.length url ∧ ∃ next : Next ClosePhase Unit,
        c.tasks[c₀.tasks.length]? = some ((CloseFrame.failed failure).next next) ∧
          c.HasReported (next.elim some none)) hrun₂
    ⟨run.continues (continues_run hrun₁), hdials, .phase .mark, ht, trivial⟩
    fun ms₁ m turn₃ c₃ c₄ hpre _ ⟨run, hdials, next, ht, hreported⟩ keeps happly =>
      ⟨.move m run keeps happly,
        hdials.apply (h.alone m (List.mem_append_right _ (hpre.subset (List.mem_concat_self ..))))
          happly,
        hreported.move (.failed failure) rfl (hdials.undialed ht) run ht keeps happly⟩
  rcases next with q | r
  · cases hdone.symm.trans ht
  · exact StaysClosed.not_mayReopen hreported (hdials.unconnected hdone)

/-- Whatever the parser of URLs is: a connect to a text that names no web socket takes one step,
returns an error and changes nothing else. Suppose that nobody else is connecting when a connect to
any other text begins, that nobody begins to before its end, and that its opening fails. In any
interleaving it returns this failure and can always come to return it. It leaves a closed client,
with the new endpoint but without a link or a pending call; what waits is failed once, at the end of
each of its two closes. If the tasks switch at their waits only, the status stays that of a closed
client from then on, so calls are refused until the next connect. -/
theorem failed_connect_leaves_closed (parse : String → Except String Url) (text : String) :
    (IsRefused (.of parse text) → ∀ (c : Client) (t : TaskId),
      c.tasks[t]? = some (.connect (.start (.of parse text))) →
      ∃ failure, ∀ choice c', c.step t choice = some c' ↔
        choice = .run ∧ c' = ⟨c.shared, c.tasks.set t (.connect (.done (.error failure)))⟩) ∧
    ∀ url, ¬IsRefused (.of parse text) → parse text = .ok url →
      (∀ config c (t : TaskId) choice c', Reachable config c →
        c.tasks[t]? = some (.connect (.closing url .fail)) → c.step t choice = some c' →
        c.FailsWaiting c') ∧
      ∀ config c₀ failure ms c, Reachable config c₀ →
        HasFailed c₀ (.of parse text) failure ms c →
        (c.IsKept → c.IsFailing c₀.tasks.length failure ∧
          (∃ c', c.Advances c' ∧
            c'.tasks[c₀.tasks.length]? = some (.connect (.done (.error failure)))) ∧
          ∀ choice c', c.step c₀.tasks.length choice = some c' →
            c'.tasks[c₀.tasks.length]? = some (.connect (.done (.error failure))) →
            c.LeavesClosed c' url) ∧
        ∀ turn turn', Cooperative config turn c₀ →
          c₀.run turn (.start (.connect (.of parse text)) :: ms) = some (turn', c) →
          c.tasks[c₀.tasks.length]? = some (.connect (.done (.error failure))) →
          ¬c.MayReopen := by
  refine ⟨fun hrefused c t ht => step_refused ht hrefused, fun url haccepted hparse =>
    ⟨fun config c t choice c' run ht hstep => ?_, fun config c₀ failure ms c run h => ?_⟩⟩
  · obtain ⟨x, c₁, x', hx, hraw, rfl⟩ := step_eq_some_iff.1 hstep
    cases ht.symm.trans hx
    obtain ⟨next, -, hclose⟩ := (taskStep_cases hraw).closing_cases (.connect url)
    cases hclose
    exact failsWaiting_of_failAll run rfl
  · have hurl : endpointOf (.of parse text) = .ok url :=
      endpointOf_eq_ok_iff.2 ⟨haccepted, hparse⟩
    have run' : Reachable config c :=
      follow_induct (P := fun _ => Reachable config) h.follow run fun _ m _ _ _ run => .move m run
    exact ⟨fun hkept => ⟨h.isFailing, h.isFailing.exists_advances run' hkept,
        fun choice c' hstep hdone => h.leavesClosed run' hkept hurl hstep hdone⟩,
      fun turn turn' hcooperative hrun hdone => h.not_mayReopen hurl hcooperative hrun hdone⟩

/-- The connect with this number waits for the answer to its dial. -/
def isDialing (c : Client) (t : TaskId) : Bool :=
  match c.tasks[t]? with
  | some (.connect (.opening _ (.dialing _))) => true
  | _ => false

theorem hasFailed_of_isDialing {before after : List Move}
    (hc : (c₀.tasks.all fun x => !x.connects) = true) (ht : c₀.tasks.length = t)
    (hms : ∀ m ∈ before ++ .step t (.dialFailed failure) :: after, m.connects = false)
    (hbefore : c₀.follow (.start (.connect target) :: before) = some c₁)
    (hdialing : c₁.isDialing t = true)
    (hafter : c₁.follow (.step t (.dialFailed failure) :: after) = some c) :
    HasFailed c₀ target failure (before ++ .step t (.dialFailed failure) :: after) c := by
  subst ht
  refine ⟨isUnconnected_of_all hc, hms, ?_, before, _, after, c₁, rfl, hbefore, ?_⟩
  · rw [← List.cons_append, follow_append, hbefore]
    exact hafter
  · unfold isDialing at hdialing
    split at hdialing
    next epoch url ht => exact ⟨epoch, .dialing url, c₁, ht, rfl⟩
    next => cases hdialing

/-- The connect with this number has returned this message of its socket. -/
def hasReturned (c : Client) (t : TaskId) (message : String) : Bool :=
  match c.tasks[t]? with
  | some (.connect (.done (.error (.webSocket report)))) => report = message
  | _ => false

theorem done_of_hasReturned {message : String} (h : c.hasReturned t message = true) :
    c.tasks[t]? = some (.connect (.done (.error (.webSocket message)))) := by
  unfold hasReturned at h
  split at h
  next report ht => exact of_decide_eq_true h ▸ ht
  next => cases h

/-- A connect, as the task with this number, up to its dial. Its first close finds a link, and the
receiver in it if that is there. -/
def dialingAgain (t : TaskId) (receiver : Option TaskId) : List Move :=
  .step t .run :: closing t receiver ++ List.replicate 8 (.step t .run)

theorem endpointOf_socket : endpointOf socket = .ok socketUrl := by
  have hblank : Text.isBlank "ws://h/" = false := by decide +kernel
  simp [endpointOf, socket, Target.of, parseSocket, hblank, isWebSocket, socketUrl]

/-- A client with an open link and a call under way connects again, and the dial is refused. -/
theorem failed_connect_leaves_closed_redialing :
    (∃ failure c', (fresh .standard).follow
        [.start (.connect (.of parseSocket " ")), .step 0 .run] = some c' ∧
      c'.tasks[0]? = some (.connect (.done (.error failure))) ∧ c'.shared = .fresh .standard) ∧
    ∃ turn c₀ ms c c', Cooperative .standard turn c₀ ∧ c₀.shared.status = .opened ∧
      c₀.shared.pending.slot? 0 = some .waiting ∧ ¬IsRefused (.of parseSocket "ws://h/") ∧
      parseSocket "ws://h/" = .ok socketUrl ∧
      HasFailed c₀ (.of parseSocket "ws://h/") (.webSocket "refused") ms c ∧
      c.IsKept ∧ (∃ c₁, c.Advances c₁ ∧
        c₁.tasks[4]? = some (.connect (.done (.error (.webSocket "refused"))))) ∧
      c.step 4 .run = some c' ∧ c.LeavesClosed c' socketUrl ∧ ¬c'.MayReopen ∧ c'.RefusesCalls := by
  constructor
  · have ht : ((fresh .standard).spawn (.connect (.start (.of parseSocket " ")))).tasks[0]? =
        some (.connect (.start (.of parseSocket " "))) := rfl
    obtain ⟨failure, hstep⟩ :=
      (failed_connect_leaves_closed parseSocket " ").1 (.inl (by decide +kernel)) _ 0 ht
    refine ⟨failure, ⟨.fresh .standard, [.connect (.done (.error failure))]⟩, ?_, rfl, rfl⟩
    exact follow_cons.2 ⟨_, rfl, follow_cons.2 ⟨_, (hstep .run _).2 ⟨rfl, rfl⟩, rfl⟩⟩
  · have hrun : ((fresh .standard).run none (connecting 0 ++ calling 3)).any (fun r =>
        (r.2.run r.1 (.start (.connect socket) :: dialingAgain 4 (some 1))).any fun r₁ =>
        (r₁.2.run r₁.1 (.step 4 (.dialFailed (.webSocket "refused")) ::
          List.replicate 8 (.step 4 .run))).any fun r₂ =>
        (r₂.2.run r₂.1 [.step 4 .run]).any fun r₃ =>
        (r.2.tasks.all fun x => !x.connects) = true ∧ r.2.tasks.length = 4 ∧
        r.2.shared.status = .opened ∧ r.2.shared.pending.slot? 0 = some .waiting ∧
        r₁.2.isDialing 4 = true ∧ (r₂.2.tasks.all fun x => !x.isDiscard) = true ∧
        r₃.2.hasReturned 4 "refused" = true) = true := by
      decide +kernel
    obtain ⟨⟨turn, c₀⟩, hc₀, hrun⟩ := Option.any_eq_true _ _ |>.1 hrun
    obtain ⟨⟨turn₁, c₁⟩, hc₁, hrun⟩ := Option.any_eq_true _ _ |>.1 hrun
    obtain ⟨⟨turn₂, c⟩, hc, hrun⟩ := Option.any_eq_true _ _ |>.1 hrun
    obtain ⟨⟨turn₃, c'⟩, hc', hfacts⟩ := Option.any_eq_true _ _ |>.1 hrun
    obtain ⟨hconnects, hlength, hopened, hwaiting, hdialing, hkept, hreturned⟩ :=
      of_decide_eq_true hfacts
    have run : Cooperative .standard turn c₀ := .continues .fresh (continues_run hc₀)
    have hkept := isKept_of_all hkept
    have hdone := done_of_hasReturned hreturned
    obtain ⟨haccepted, hparse⟩ := endpointOf_eq_ok_iff.1 endpointOf_socket
    have hstep : c.step 4 .run = some c' := by
      obtain ⟨c₂, hstep, heq⟩ := follow_cons.1 (follow_of_run hc')
      cases heq
      exact hstep
    have h := hasFailed_of_isDialing hconnects hlength (by decide) (follow_of_run hc₁) hdialing
      (follow_of_run hc)
    obtain ⟨-, hfailed⟩ :=
      (failed_connect_leaves_closed parseSocket "ws://h/").2 socketUrl haccepted hparse
    obtain ⟨hreturns, -⟩ := hfailed _ _ _ _ _ run.reachable h
    obtain ⟨-, hadvances, hleaves⟩ := hreturns hkept
    have hleft := hleaves .run c' (hlength ▸ hstep) (hlength ▸ hdone)
    have hrun : c₀.run turn (.start (.connect socket) :: (dialingAgain 4 (some 1) ++
        .step 4 (.dialFailed (.webSocket "refused")) :: List.replicate 8 (.step 4 .run) ++
          [.step 4 .run])) = some (turn₃, c') := by
      rw [← List.cons_append, ← List.cons_append, run_append, run_append, hc₁]
      simp only [Option.bind_some, hc, hc']
    have hmove : c.apply (.step 4 .run) = some c' := hstep
    obtain ⟨-, hlasts⟩ := hfailed _ _ _ _ _ run.reachable (h.move rfl hmove)
    have hlasts := hlasts turn turn₃ run hrun (hlength ▸ hdone)
    exact ⟨turn, c₀, _, c, c', run, hopened, hwaiting, haccepted, hparse, h, hkept,
      hlength ▸ hadvances, hstep, hleft, hlasts, hleft.refuses hlasts⟩

/-- A connect fails while a receiver is about to publish that its link is lost. The receiver does so
between the two halves of the last close. The connect returns, but the client is not reported as
closed, and a call that begins then waits for a link. -/
theorem failed_connect_reported_reconnecting : ∃ c₀ ms c c' c₁ spec, Reachable .standard c₀ ∧
    HasFailed c₀ socket (.webSocket "refused") ms c ∧ c.step 3 .run = some c' ∧
    c'.tasks[3]? = some (.connect (.done (.error (.webSocket "refused")))) ∧
    c'.shared.status = .reconnecting ∧ Text.isBlank spec.method = false ∧ spec.signal = none ∧
    c'.follow (.start (.call spec) :: List.replicate 3 (.step 4 .run)) = some c₁ ∧
    c₁.tasks[4]? = some (.call spec .awaitOpen) ∧ c₁.step 4 .settled = none := by
  have hrun : ((fresh .standard).follow losingLink).any (fun c₀ =>
      (c₀.follow (.start (.connect socket) :: dialingAgain 3 none)).any fun c₁ =>
      (c₁.follow (.step 3 (.dialFailed (.webSocket "refused")) ::
        (List.replicate 4 (.step 3 .run) ++ .step 1 .run ::
          List.replicate 4 (.step 3 .run)))).any fun c =>
      (c.step 3 .run).any fun c' =>
      (c'.follow (.start (.call ⟨"m", .null, none, none⟩) ::
        List.replicate 3 (.step 4 .run))).any fun c₂ =>
      (c₀.tasks.all fun x => !x.connects) = true ∧ c₀.tasks.length = 3 ∧
      c₁.isDialing 3 = true ∧ c'.hasReturned 3 "refused" = true ∧
      c'.shared.status = .reconnecting ∧
      c₂.call? 4 = some (⟨"m", .null, none, none⟩, .awaitOpen) ∧
      (c₂.step 4 .settled).isNone = true) = true := by
    decide +kernel
  obtain ⟨c₀, hc₀, hrun⟩ := Option.any_eq_true _ _ |>.1 hrun
  obtain ⟨c₁, hc₁, hrun⟩ := Option.any_eq_true _ _ |>.1 hrun
  obtain ⟨c, hc, hrun⟩ := Option.any_eq_true _ _ |>.1 hrun
  obtain ⟨c', hc', hrun⟩ := Option.any_eq_true _ _ |>.1 hrun
  obtain ⟨c₂, hc₂, hfacts⟩ := Option.any_eq_true _ _ |>.1 hrun
  obtain ⟨hconnects, hlength, hdialing, hreturned, hstatus, hcall, hwaits⟩ :=
    of_decide_eq_true hfacts
  exact ⟨c₀, _, c, c', c₂, _, reachable_iff_follow.2 ⟨_, hc₀⟩,
    hasFailed_of_isDialing hconnects hlength (by decide) hc₁ hdialing hc, hc',
    done_of_hasReturned hreturned, hstatus, by decide +kernel, rfl, hc₂, getElem?_of_call? hcall,
    Option.isNone_iff_eq_none.1 hwaits⟩

end Client
end DuplexRpc
