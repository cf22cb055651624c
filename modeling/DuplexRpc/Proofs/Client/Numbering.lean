import DuplexRpc.Proofs.Client.AfterClose

/-!
The numbers of the attempts to open a lost link again. All tasks share one counter. Where they
switch at their waits only, it tells how many attempts have begun since a connect last came to dial
or the link was last opened, whatever tasks have begun them.
-/
namespace DuplexRpc

/-- What matters for the numbers of the attempts. -/
inductive Milestone where
  /-- a connect begins, with the text of a web socket URL -/
  | begun
  /-- a connect has closed what was there before it and goes on to dial -/
  | dialing
  /-- the link is open -/
  | opened
  /-- a reconnect task begins an attempt -/
  | attempt
  deriving DecidableEq

namespace Milestone

variable {marks : List Milestone}

def tally (marks : List Milestone) (n : Nat) (e : Milestone) : Nat :=
  if e ∈ marks then 0 else if e = attempt then n + 1 else n

/-- How many attempts there are after the last of the marks. -/
def attemptsSince (marks es : List Milestone) : Nat := es.foldl (tally marks) 0

end Milestone

namespace Task

/-- What the next step of the task means for the numbers of the attempts. -/
def milestone? : Task → Option Milestone
  | connect (.start target) => (Client.endpointOf target).toOption.map fun _ => .begun
  | connect (.publish _) => some .dialing
  | connect (.opening _ .publish) | reconnect _ (.opening .publish) => some .opened
  | reconnect _ .count => some .attempt
  | _ => none

/-- The task has set the counter back, and not yet shown why. -/
def isRestarting : Task → Bool
  | connect (.unclose _) | connect (.publish _) | connect (.opening _ .publish)
  | reconnect _ (.opening .publish) => true
  | _ => false

/-- A connect that has begun and has yet to dial. -/
def isPreparing : Task → Bool
  | connect (.start _) | connect (.opening _ _) | connect (.failing _ _) | connect (.done _) =>
    false
  | connect _ => true
  | _ => false

end Task

namespace Client

variable {config : Config} {c c' c₁ : Client} {t u : TaskId} {choice : Choice} {m : Move}
  {ms : List Move} {task task' x : Task} {turn turn' : Option TaskId} {n k : Nat}

/-- The milestone that a move is. -/
def milestone (c : Client) (m : Move) (_ : Client) : List Milestone :=
  match m with
  | .step t _ => ((c.tasks[t]?).bind Task.milestone?).toList
  | _ => []

def milestones (c : Client) (ms : List Move) : List Milestone := noted milestone c ms

theorem attemptsSince_concat {marks : List Milestone} (h : c.follow ms = some c₁)
    (hm : c₁.apply m = some c') : Milestone.attemptsSince marks (c.milestones (ms ++ [m])) =
      (milestone c₁ m c').foldl (Milestone.tally marks)
        (Milestone.attemptsSince marks (c.milestones ms)) := by
  rw [milestones, noted_concat h hm, Milestone.attemptsSince, List.foldl_append]
  rfl

/-- What a step does to the counter. -/
inductive CountStep (s s' : Shared) (x x' : Task) : Prop where
  | still (hx : x.milestone? = none ∨ x.milestone? = some .begun)
    (hattempts : s'.attempts = s.attempts) (hx' : x'.isRestarting = x.isRestarting)
  | reset (hx : x.milestone? = none) (hattempts : s'.attempts = 0) (hx' : x'.isRestarting = true)
  | restart (hx : x.milestone? = some .dialing ∨ x.milestone? = some .opened)
    (hbefore : x.isRestarting = true) (hattempts : s'.attempts = s.attempts)
    (hx' : x'.isRestarting = false)
  | count (hx : x.milestone? = some .attempt) (hbefore : x.isRestarting = false)
    (hattempts : s'.attempts = s.attempts + 1) (hx' : x'.isRestarting = false)

theorem reconnectStep_count {epoch : Nat} {p' : ReconnectPhase}
    (h : c.reconnectStep t epoch choice .count = some (c₁, p')) :
    ∃ sample, choice = .drawn sample ∧
      c₁ = c.update (fun s => { s with attempts := s.attempts + 1 }) ∧
      p' = (c.shared.config.backoff.delay? c.shared.attempts sample).elim .done
        (.sleeping c.shared.attempts) := by
  cases choice with
  | drawn sample =>
    simp only [reconnectStep] at h
    split at h <;> cases h
    exact ⟨sample, rfl, rfl, rfl⟩
  | _ => cases h

theorem CountStep.plain {s s' : Shared} (hx : x.milestone? = none ∨ x.milestone? = some .begun)
    (hbefore : x.isRestarting = false) (hafter : task.isRestarting = false)
    (hattempts : s'.attempts = s.attempts) : CountStep s s' x task :=
  .still hx hattempts (hafter.trans hbefore.symm)

/-- The task neither is at the counter nor has been there. -/
structure IsAside (x : Task) : Prop where
  milestone : x.milestone? = none
  restarting : x.isRestarting = false

theorem IsAside.counts {s s' : Shared} (h : IsAside x) (h' : IsAside task)
    (hattempts : s'.attempts = s.attempts) : CountStep s s' x task :=
  .plain (.inl h.milestone) h.restarting h'.restarting hattempts

theorem CloseFrame.isAside_next (f : CloseFrame) (next : Next ClosePhase Unit) :
    IsAside (f.next next) := by
  cases f <;> cases next <;> exact ⟨rfl, rfl⟩

theorem CallFrame.isAside_next (f : CallFrame) (next : Next CallPhase (Option Outcome)) :
    IsAside (f.next next) := by
  fun_cases CallFrame.next f next <;> exact ⟨rfl, rfl⟩

theorem StartFrame.isAside_next (f : StartFrame) (next : Next StartPhase Unit) :
    IsAside (f.next next) := by
  cases f <;> cases next <;> exact ⟨rfl, rfl⟩

theorem isAside_passNext (g : Generation) (next : Next DisconnectPhase Unit) :
    IsAside (passNext g next) := by
  cases next <;> exact ⟨rfl, rfl⟩

theorem isAside_replyNext (g : Generation) (response : Response)
    (next : Next SendPhase (Except Failure Unit)) : IsAside (replyNext g response next) := by
  cases next <;> exact ⟨rfl, rfl⟩

theorem OpenFrame.isAside_phase (f : OpenFrame) {p : OpenPhase} (hp : p ≠ .publish) :
    IsAside (f.next (.phase p)) := by
  cases f <;> cases p <;> first | exact ⟨rfl, rfl⟩ | exact absurd rfl hp

theorem OpenFrame.isAside_over (f : OpenFrame) (result : Except Failure Unit) :
    IsAside (f.next (.over result)) := by
  cases f <;> cases result <;> exact ⟨rfl, rfl⟩

theorem OpenStep.counts (f : OpenFrame) {p : OpenPhase}
    {next : Next OpenPhase (Except Failure Unit)} (h : OpenStep c t f.epoch p c₁ next) :
    CountStep c.shared c₁.shared (f.next (.phase p)) (f.next next) := by
  have early {p : OpenPhase} (hp : p.isEarly = true) : IsAside (f.next (.phase p)) :=
    f.isAside_phase (by rintro rfl; cases hp)
  have still {p' : OpenPhase} (hp : p ≠ .publish) (hp' : p' ≠ .publish)
      (hattempts : c₁.shared.attempts = c.shared.attempts) :
      CountStep c.shared c₁.shared (f.next (.phase p)) (f.next (.phase p')) :=
    (f.isAside_phase hp).counts (f.isAside_phase hp') hattempts
  have ends {result : Except Failure Unit} (hp : p ≠ .publish)
      (hattempts : c₁.shared.attempts = c.shared.attempts) :
      CountStep c.shared c₁.shared (f.next (.phase p)) (f.next (.over result)) :=
    (f.isAside_phase hp).counts (f.isAside_over result) hattempts
  cases h with
  | look hp hp' => exact (early hp).counts (early hp') rfl
  | fail failure hp => exact (early hp).counts (f.isAside_over _) rfl
  | dialed url | ask => exact still nofun nofun rfl
  | late held | stale held h => exact ends nofun rfl
  | install held h =>
    refine still nofun ?_ rfl
    split <;> exact nofun
  | failRetired => exact still nofun nofun rfl
  | resetAttempts =>
    refine .reset ?_ rfl ?_
    all_goals cases f <;> rfl
  | publish =>
    refine .restart (.inr ?_) ?_ rfl (f.isAside_over _).restarting
    all_goals cases f <;> rfl

theorem ConnectStep.counts {p p' : ConnectPhase} (h : ConnectStep c p c₁ p') :
    CountStep c.shared c₁.shared (.connect p) (.connect p') := by
  have start (target : Target) : (Task.connect (.start target)).milestone? = none ∨
      (Task.connect (.start target)).milestone? = some .begun := by
    rw [Task.milestone?]
    cases endpointOf target with
    | error failure => exact .inl rfl
    | ok url => exact .inr rfl
  cases h with
  | refused target failure | accepted target url => exact .plain (start target) rfl rfl rfl
  | setEndpoint url | readEpoch => exact .plain (.inl rfl) rfl rfl rfl
  | resetAttempts epoch => exact .reset rfl rfl rfl
  | unclose epoch => exact .still (.inl rfl) rfl rfl
  | publish epoch => exact .restart (.inl rfl) rfl rfl rfl

theorem isRestarting_of_isLooping {epoch : Nat} {p : ReconnectPhase} (hp : p.isLooping = true) :
    (Task.reconnect epoch p).isRestarting = false := by
  cases p <;> first | rfl | cases hp

theorem isAside_of_isLooping {epoch : Nat} {p : ReconnectPhase} (hp : p.isLooping = true)
    (hne : p ≠ .count) : IsAside (.reconnect epoch p) := by
  refine ⟨?_, isRestarting_of_isLooping hp⟩
  cases p <;> first | rfl | exact absurd rfl hne | cases hp

theorem TaskStep.counts (h : TaskStep c t choice task c₁ task')
    (hne : ∀ epoch, task ≠ .reconnect epoch .count) :
    CountStep c.shared c₁.shared task task' := by
  cases h with
  | opening f h => exact h.counts f
  | closing f h =>
    refine (f.isAside_next _).counts (f.isAside_next _) ?_
    cases h <;> rfl
  | calling f h =>
    refine (f.isAside_next _).counts (f.isAside_next _) ?_
    cases h with
    | send id n h | sent id n h | unsent id n h => cases h <;> rfl
    | _ => rfl
  | starting f h =>
    refine (f.isAside_next _).counts (f.isAside_next _) ?_
    cases h <;> rfl
  | disconnecting g h =>
    refine (isAside_passNext g _).counts (isAside_passNext g _) ?_
    cases h <;> rfl
  | replying g response h =>
    refine (isAside_replyNext g response _).counts (isAside_replyNext g response _) ?_
    cases h <;> rfl
  | connect h => exact h.counts
  | receive g h => cases h <;> exact .plain (.inl rfl) rfl rfl rfl
  | heart g h => cases h <;> exact .plain (.inl rfl) rfl rfl rfl
  | @reconnect epoch _ p p' h =>
    have hp : p ≠ .count := by
      rintro rfl
      exact hne epoch rfl
    cases h with
    | look hlooping hlooping' =>
      have haside : IsAside (.reconnect epoch p) := isAside_of_isLooping hlooping hp
      exact .plain (.inl haside.milestone) haside.restarting
        (isRestarting_of_isLooping hlooping') rfl
    | leave hlooping h => exact (isAside_of_isLooping hlooping hp).counts ⟨rfl, rfl⟩ rfl
    | count | breakOff => exact absurd rfl hp
    | _ => exact .plain (.inl rfl) rfl rfl rfl
  | discard h =>
    exact .plain (.inl rfl) rfl rfl (congrArg Lasting.attempts h.lasting_eq)

theorem taskStep_counts (h : c.taskStep t choice task = some (c₁, task')) :
    CountStep c.shared c₁.shared task task' := by
  by_cases hcount : ∃ epoch, task = .reconnect epoch .count
  · obtain ⟨epoch, rfl⟩ := hcount
    obtain ⟨⟨c₂, p'⟩, hreconnect, heq⟩ := Option.map_eq_some_iff.1 h
    cases heq
    obtain ⟨sample, rfl, rfl, rfl⟩ := reconnectStep_count hreconnect
    refine .count rfl rfl rfl ?_
    cases c.shared.config.backoff.delay? c.shared.attempts sample <;> rfl
  · exact (taskStep_cases h).counts (not_exists.1 hcount)

theorem not_restarting_of_rests (h : rests x = true) : x.isRestarting = false := by
  cases x with
  | connect p =>
    cases p with
    | opening epoch p => cases p <;> first | rfl | cases h
    | _ => first | rfl | cases h
  | reconnect epoch p =>
    cases p with
    | opening p => cases p <;> first | rfl | cases h
    | _ => rfl
  | _ => rfl

/-- The counter shows so many attempts, or a task has just set it back. -/
def Reckons (c : Client) (n : Nat) : Prop :=
  (∃ (t : TaskId) (x : Task), c.tasks[t]? = some x ∧ x.isRestarting = true ∧
    c.shared.attempts = 0) ∨
  ((∀ (t : TaskId) (x : Task), c.tasks[t]? = some x → x.isRestarting = false) ∧
    c.shared.attempts = UInt32.ofNat n)

/-- A move of the user leaves the counter alone. -/
theorem attempts_of_outer (h : c.apply m = some c') (hm : ∀ t choice, m ≠ .step t choice) :
    c'.shared.attempts = c.shared.attempts := by
  cases apply_cases h with
  | step _ _ => exact absurd rfl (hm _ _)
  | _ => rfl

theorem milestone_of_outer (hm : ∀ t choice, m ≠ .step t choice) : milestone c m c' = [] := by
  cases m with
  | step t choice => exact absurd rfl (hm t choice)
  | _ => rfl

theorem milestone_step (ht : c.tasks[t]? = some x) :
    milestone c (.step t choice) c' = x.milestone?.toList := by
  simp [milestone, ht]

/-- After a move of the user there are the tasks of before, and perhaps one that has yet to
begin. -/
theorem origin_of_outer (h : c.apply m = some c') (hm : ∀ t choice, m ≠ .step t choice)
    (hu : c'.tasks[u]? = some x) :
    c.tasks[u]? = some x ∨ ∃ request : Request, x = request.task := by
  cases apply_cases h with
  | start request => exact (cases_spawn hu).imp_right fun heq => ⟨request, heq⟩
  | register method handler registry | cancel token => exact .inl hu
  | step _ _ => exact absurd rfl (hm _ _)

theorem Reckons.outer (hr : c.Reckons n) (h : c.apply m = some c')
    (hm : ∀ t choice, m ≠ .step t choice) : c'.Reckons n := by
  have hattempts := attempts_of_outer h hm
  obtain ⟨t, x, ht, hx, hzero⟩ | ⟨hall, hn⟩ := hr
  · exact .inl ⟨t, x, getElem?_of_outer h hm ht, hx, hattempts.trans hzero⟩
  · refine .inr ⟨fun t x ht => ?_, hattempts.trans hn⟩
    obtain ht | ⟨request, rfl⟩ := origin_of_outer h hm ht
    · exact hall t x ht
    · cases request <;> rfl

theorem Reckons.step (hr : c.Reckons n) (run : Cooperative config turn c)
    (keeps : c.keepsTurn turn (.step t choice) = true) (h : c.step t choice = some c') :
    c'.Reckons ((milestone c (.step t choice) c').foldl
      (Milestone.tally [.dialing, .opened]) n) := by
  obtain ⟨x, c₁, x', ht, hstep, rfl⟩ := step_eq_some_iff.1 h
  have ht' := (taskStep_cases hstep).getElem?_set_self ht
  rw [milestone_step ht]
  have hothers (u y) (hut : u ≠ t) (hu : (c₁.tasks.set t x')[u]? = some y) :
      y.isRestarting = false :=
    not_restarting_of_rests <| (run.move _ keeps h).rests hu fun heq =>
      hut (Option.some.inj heq).symm
  -- nobody but the task that steps can have set the counter back
  have hbefore : (x.isRestarting = true ∧ c.shared.attempts = 0) ∨
      (x.isRestarting = false ∧ c.shared.attempts = UInt32.ofNat n) := by
    obtain ⟨u, y, hu, hy, hzero⟩ | ⟨hall, hn⟩ := hr
    · by_cases hut : u = t
      · subst hut
        cases ht.symm.trans hu
        exact .inl ⟨hy, hzero⟩
      · cases (not_restarting_of_rests (run.others_rest keeps hut hu)).symm.trans hy
    · exact .inr ⟨hall t x ht, hn⟩
  have after {k : Nat} (hx' : x'.isRestarting = false)
      (hattempts : c₁.shared.attempts = UInt32.ofNat k) :
      Reckons ⟨c₁.shared, c₁.tasks.set t x'⟩ k := by
    refine .inr ⟨fun u y hu => ?_, hattempts⟩
    by_cases hut : u = t
    · subst hut
      cases ht'.symm.trans hu
      exact hx'
    · exact hothers u y hut hu
  cases taskStep_counts hstep with
  | still hx hattempts hx' =>
    have hn : x.milestone?.toList.foldl (Milestone.tally [.dialing, .opened]) n = n := by
      obtain hx | hx := hx <;> simp [hx, Milestone.tally]
    rw [hn]
    obtain ⟨hrestarting, hzero⟩ | ⟨hsteady, hn⟩ := hbefore
    · exact .inl ⟨t, x', ht', hx'.trans hrestarting, hattempts.trans hzero⟩
    · exact after (hx'.trans hsteady) (hattempts.trans hn)
  | reset hx hattempts hx' => exact .inl ⟨t, x', ht', hx', hattempts⟩
  | restart hx hrestarting hattempts hx' =>
    have hn : x.milestone?.toList.foldl (Milestone.tally [.dialing, .opened]) n = 0 := by
      obtain hx | hx := hx <;> simp [hx, Milestone.tally]
    rw [hn]
    obtain ⟨-, hzero⟩ | ⟨hsteady, -⟩ := hbefore
    · exact after hx' (hattempts.trans hzero)
    · cases hsteady.symm.trans hrestarting
  | count hx hsteady hattempts hx' =>
    have hn : x.milestone?.toList.foldl (Milestone.tally [.dialing, .opened]) n = n + 1 := by
      simp [hx, Milestone.tally]
    rw [hn]
    obtain ⟨hrestarting, -⟩ | ⟨-, hn⟩ := hbefore
    · cases hsteady.symm.trans hrestarting
    · refine after hx' ?_
      rw [hattempts, hn, UInt32.ofNat_add]
      rfl

theorem reckons_of_run (h : (Client.fresh config).run none ms = some (turn, c)) : c.Reckons
    (Milestone.attemptsSince [.dialing, .opened] ((Client.fresh config).milestones ms)) := by
  induction ms using List.reverseRecOn generalizing turn c with
  | nil =>
    cases h
    refine .inr ⟨fun t x ht => ?_, rfl⟩
    cases ht
  | append_singleton ms m ih =>
    obtain ⟨turn₁, c₁, hms, keeps, hm, rfl⟩ := run_concat.1 h
    rw [attemptsSince_concat (follow_of_run hms) hm]
    have run : Cooperative config turn₁ c₁ := .continues .fresh (continues_run hms)
    by_cases hstep : ∃ t choice, m = .step t choice
    · obtain ⟨t, choice, rfl⟩ := hstep
      exact (ih hms).step run keeps hm
    · have hm' (t choice) : m ≠ .step t choice := fun heq => hstep ⟨t, choice, heq⟩
      rw [milestone_of_outer hm']
      exact (ih hms).outer hm hm'

/-- A reconnect task has found the client open and goes on to count. -/
def isAdmitted : ReconnectPhase → Bool
  | .checkEpoch | .count => true
  | _ => false

theorem reconnectStep_admits {epoch : Nat} {p p' : ReconnectPhase}
    (h : c.reconnectStep t epoch choice p = some (c₁, p')) (hp' : isAdmitted p' = true) :
    c₁ = c ∧ (c.shared.closed = false ∨ isAdmitted p = true) := by
  cases p with
  | checkClosed =>
    cases choice with
    | run =>
      cases h
      split at hp'
      · cases hp'
      next hopen => exact ⟨rfl, .inl (by simpa using hopen)⟩
    | _ => cases h
  | checkEpoch =>
    cases choice with
    | run =>
      cases h
      exact ⟨rfl, .inr rfl⟩
    | _ => cases h
  | count =>
    obtain ⟨sample, -, -, rfl⟩ := reconnectStep_count h
    revert hp'
    cases c.shared.config.backoff.delay? c.shared.attempts sample <;> exact nofun
  | sleeping attempt delay =>
    cases choice with
    | elapsed =>
      cases h
      cases hp'
    | cancelled =>
      simp only [reconnectStep] at h
      split at h <;> cases h
      cases hp'
    | _ => cases h
  | wakeClosed | wakeEpoch | recheckClosed | recheckStatus =>
    cases choice with
    | run =>
      cases h
      split at hp' <;> cases hp'
    | _ => cases h
  | opening q =>
    obtain ⟨⟨c₂, next⟩, -, heq⟩ := Option.map_eq_some_iff.1 h
    rcases next with q' | ⟨_ | _⟩ <;> cases heq <;> cases hp'
  | clear =>
    cases choice with
    | run =>
      cases h
      cases hp'
    | _ => cases h
  | starting q =>
    obtain ⟨⟨c₂, next⟩, -, heq⟩ := Option.map_eq_some_iff.1 h
    cases next <;> cases heq <;> cases hp'
  | done => cases h

/-- Only a connect that goes on to dial opens a closed client. -/
theorem taskStep_closed (h : c.taskStep t choice task = some (c₁, task'))
    (htask : task.isPreparing = false) (hclosed : c.shared.closed = true) :
    c₁.shared.closed = true := by
  by_cases hstart : ∃ target, task = .connect (.start target)
  · obtain ⟨target, rfl⟩ := hstart
    obtain ⟨⟨c₂, p'⟩, hconnect, heq⟩ := Option.map_eq_some_iff.1 h
    cases heq
    exact (connectStep_start hconnect).1 ▸ hclosed
  · have hrole : task.role ≠ .connecting := by
      intro hrole
      obtain ⟨p, rfl⟩ := exists_connect_of_role hrole
      cases p with
      | start target => exact hstart ⟨target, rfl⟩
      | _ => first | cases htask; done | cases hrole
    exact ((taskStep_cases h).lifecycle.stays_closed hrole hclosed).1

theorem reconnect_of_taskStep {epoch : Nat} {p' : ReconnectPhase}
    (h : c.taskStep t choice task = some (c₁, .reconnect epoch p')) :
    ∃ p, task = .reconnect epoch p ∧ c.reconnectStep t epoch choice p = some (c₁, p') := by
  obtain ⟨p, rfl⟩ := eq_reconnect_of_kind (taskStep_cases h).kind.symm
  obtain ⟨⟨c₂, p₂⟩, hstep, heq⟩ := Option.map_eq_some_iff.1 h
  cases heq
  exact ⟨p, rfl, hstep⟩

theorem not_rests_of_isAdmitted {epoch : Nat} {p : ReconnectPhase} (h : isAdmitted p = true) :
    rests (.reconnect epoch p) = false := by
  cases p <;> first | rfl | cases h

theorem Cooperative.not_admitted (run : Cooperative config turn c)
    (hclosed : c.shared.closed = true) {epoch : Nat} {p : ReconnectPhase}
    (ht : c.tasks[t]? = some (.reconnect epoch p)) : isAdmitted p = false := by
  induction run generalizing p with
  | fresh => cases ht
  | @move turn c c' m before keeps h ih =>
    rw [← Bool.not_eq_true]
    intro hp
    cases origin_of_apply h ht with
    | started request hm hx => cases request <;> cases hx
    | spawned hnew =>
      obtain ⟨hnew, -⟩ := hnew
      cases p <;> first | cases hp; done | cases hnew
    | stayed hm ht =>
      obtain ⟨-, hlife⟩ | ⟨u, choice, x, c₁, x', rfl, -⟩ := lifecycle_of_apply h
      · cases (ih ((congrArg Lifecycle.closed hlife).symm.trans hclosed) ht).symm.trans hp
      · -- it does not rest, so nobody else can have the turn
        have hne : t ≠ u := by
          rintro rfl
          exact hm choice rfl
        cases (not_rests_of_isAdmitted hp).symm.trans (before.others_rest keeps hne ht)
    | @stepped choice task c₁ hm hu hstep hshared =>
      subst hm
      obtain ⟨x, c₂, x', hx, hraw, rfl⟩ := step_eq_some_iff.1 h
      cases ((taskStep_cases hraw).getElem?_set_self hx).symm.trans ht
      obtain ⟨q, rfl, hreconnect⟩ := reconnect_of_taskStep hraw
      obtain ⟨rfl, hopen | hq⟩ := reconnectStep_admits hreconnect hp
      · cases hopen.symm.trans hclosed
      · cases (ih hclosed hx).symm.trans hq
    | aborted hserving hdone => cases hserving

/-- No connect prepares its dial. -/
def IsUnprepared (c : Client) : Prop :=
  ∀ (t : TaskId) (x : Task), c.tasks[t]? = some x → x.isPreparing = false

/-- Where a connect stands that has yet to mark the client closed, or has just taken the mark
away. -/
def isTurning : ConnectPhase → Bool
  | .closing _ .mark | .publish _ => true
  | _ => false

theorem not_rests_of_isTurning {p : ConnectPhase} (h : isTurning p = true) :
    rests (.connect p) = false := by
  cases p with
  | closing url p => cases p <;> first | rfl | cases h
  | publish epoch => rfl
  | _ => cases h

theorem ConnectStep.prepares {p p' : ConnectPhase} (h : ConnectStep c p c₁ p')
    (hp : (Task.connect p).isPreparing = true) :
    (∃ epoch, p = .publish epoch ∧ p' = .opening epoch .checkClosed) ∨
      (Task.connect p).milestone? = none ∧ (Task.connect p').isPreparing = true ∧
        (isTurning p = true ∨ c.shared.closed = true →
          isTurning p' = true ∨ c₁.shared.closed = true) := by
  cases h with
  | refused text failure | accepted text url => cases hp
  | publish epoch => exact .inl ⟨epoch, rfl, rfl⟩
  | unclose epoch => exact .inr ⟨rfl, rfl, fun _ => .inl rfl⟩
  | setEndpoint url | readEpoch | resetAttempts epoch =>
    exact .inr ⟨rfl, rfl, fun hshut => .inr (hshut.resolve_left nofun)⟩

theorem CloseStep.closed {p : ClosePhase} {next : Next ClosePhase Unit}
    (h : CloseStep c t p c₁ next) (hp : p = .mark ∨ c.shared.closed = true) :
    c₁.shared.closed = true := by
  cases h with
  | mark => rfl
  | _ => exact hp.resolve_left nofun

/-- A connect that prepares its dial goes on to do so, with the client closed, until it dials. -/
theorem TaskStep.prepares {p : ConnectPhase} (h : TaskStep c t choice (.connect p) c₁ task')
    (hp : (Task.connect p).isPreparing = true) :
    (∃ epoch, p = .publish epoch ∧ task' = .connect (.opening epoch .checkClosed)) ∨
      (Task.connect p).milestone? = none ∧ ∃ p', task' = .connect p' ∧
        (Task.connect p').isPreparing = true ∧ (isTurning p = true ∨ c.shared.closed = true →
          isTurning p' = true ∨ c₁.shared.closed = true) := by
  generalize hx : Task.connect p = x at h
  cases h with
  | connect h =>
    cases hx
    obtain ⟨epoch, rfl, rfl⟩ | ⟨hnone, hp', hshut⟩ := h.prepares hp
    · exact .inl ⟨epoch, rfl, rfl⟩
    · exact .inr ⟨hnone, _, rfl, hp', hshut⟩
  | @closing f _ q next h =>
    cases f with
    | connect url =>
      cases hx
      have hclosed (hq : isTurning (.closing url q) = true ∨ c.shared.closed = true) :
          c₁.shared.closed = true := by
        refine h.closed (hq.imp_left fun hq => ?_)
        cases q <;> first | rfl | cases hq
      cases next <;> exact .inr ⟨rfl, _, rfl, rfl, fun hq => .inr (hclosed hq)⟩
    | failed failure =>
      cases hx
      cases hp
    | close => cases hx
  | opening f =>
    cases f <;> cases hx
    cases hp
  | calling f => cases f <;> cases hx
  | starting f => cases f <;> cases hx
  | _ => cases hx

theorem start_of_begun (h : x.milestone? = some .begun) :
    ∃ target, x = .connect (.start target) := by
  revert h
  fun_cases Task.milestone? x
  case case1 target => exact fun _ => ⟨target, rfl⟩
  all_goals exact nofun

theorem preparing_of_dialing (h : x.milestone? = some .dialing) : x.isPreparing = true := by
  revert h
  fun_cases Task.milestone? x
  case case1 target => cases endpointOf target <;> exact nofun
  case case2 epoch => exact fun _ => rfl
  all_goals exact nofun

theorem count_of_attempt (h : x.milestone? = some .attempt) :
    ∃ epoch, x = .reconnect epoch .count := by
  revert h
  fun_cases Task.milestone? x
  case case1 target => cases endpointOf target <;> exact nofun
  case case5 epoch => exact fun _ => ⟨epoch, rfl⟩
  all_goals exact nofun

/-- A task starts to prepare a dial by beginning to connect. -/
theorem taskStep_prepares (h : c.taskStep t choice task = some (c₁, task'))
    (htask : task.isPreparing = false) :
    (task.milestone? = some .begun ∧ ∃ url, task' = .connect (.closing url .mark)) ∨
      (task.milestone? ≠ some .begun ∧ task'.isPreparing = false) := by
  by_cases hstart : ∃ target, task = .connect (.start target)
  · obtain ⟨target, rfl⟩ := hstart
    obtain ⟨⟨c₂, p'⟩, hconnect, heq⟩ := Option.map_eq_some_iff.1 h
    cases heq
    obtain ⟨-, ⟨url, hurl, rfl⟩ | ⟨failure, hfailure, rfl⟩⟩ := connectStep_start hconnect
    · exact .inl ⟨by simp [Task.milestone?, hurl, Except.toOption], url, rfl⟩
    · exact .inr ⟨by simp [Task.milestone?, hfailure, Except.toOption], rfl⟩
  · refine .inr ⟨?_, ?_⟩
    · exact fun hbegun => hstart (start_of_begun hbegun)
    · rw [← Bool.not_eq_true]
      intro htask'
      cases task' with
      | connect p' =>
        obtain ⟨p, rfl, hconnect⟩ := taskStep_eq_connect h
        cases p with
        | start target => exact hstart ⟨target, rfl⟩
        | opening epoch q =>
          obtain ⟨⟨c₂, next⟩, -, heq⟩ := Option.map_eq_some_iff.1 hconnect
          rcases next with q' | ⟨_ | _⟩ <;> cases heq <;> cases htask'
        | failing q failure =>
          obtain ⟨⟨c₂, next⟩, -, heq⟩ := Option.map_eq_some_iff.1 hconnect
          cases next <;> cases heq <;> cases htask'
        | done result => cases hconnect
        | _ => cases htask
      | _ => cases htask'

/-- The attempts counted from where the connects come to dial, and from where they begin: the same,
or a connect that has begun prepares its dial, and there is no attempt until it does. -/
inductive Agrees (c : Client) (n k : Nat) : Prop where
  | unprepared (hall : c.IsUnprepared) (heq : n = k)
  | prepares {t : TaskId} {p : ConnectPhase} (ht : c.tasks[t]? = some (.connect p))
    (hp : (Task.connect p).isPreparing = true)
    (hothers : ∀ (u : TaskId) (x : Task), c.tasks[u]? = some x → u ≠ t → x.isPreparing = false)
    (hshut : isTurning p = true ∨ c.shared.closed = true) (hzero : k = 0)

/-- Nobody but the task that steps comes to prepare a dial. -/
theorem not_preparing_of_step (h : c.apply (.step t choice) = some c') (hut : u ≠ t)
    (hothers : ∀ x, c.tasks[u]? = some x → x.isPreparing = false) (hu : c'.tasks[u]? = some x) :
    x.isPreparing = false := by
  cases origin_of_apply h hu with
  | started request hm => cases hm
  | spawned hnew =>
    obtain ⟨hnew, -⟩ := hnew
    cases x with
    | connect p => cases hnew
    | _ => rfl
  | stayed _ hu => exact hothers x hu
  | stepped hm =>
    cases hm
    exact absurd rfl hut
  | aborted hserving =>
    cases x with
    | connect p => cases hserving
    | _ => rfl

theorem Agrees.outer (ha : c.Agrees n k) (h : c.apply m = some c')
    (hm : ∀ t choice, m ≠ .step t choice) : c'.Agrees n k := by
  have hnew (u : TaskId) (x : Task) (hu : c'.tasks[u]? = some x)
      (hbefore : c.tasks[u]? = some x → x.isPreparing = false) : x.isPreparing = false := by
    obtain hu | ⟨request, rfl⟩ := origin_of_outer h hm hu
    · exact hbefore hu
    · cases request <;> rfl
  cases ha with
  | unprepared hall heq => exact .unprepared (fun u x hu => hnew u x hu (hall u x)) heq
  | @prepares t p ht hp hothers hshut hzero =>
    refine .prepares (getElem?_of_outer h hm ht) hp
      (fun u x hu hut => hnew u x hu fun hu => hothers u x hu hut) ?_ hzero
    obtain ⟨-, hlife⟩ | ⟨u, choice, _, _, _, heq, -⟩ := lifecycle_of_apply h
    · exact hshut.imp_right fun hclosed => (congrArg Lifecycle.closed hlife).trans hclosed
    · exact absurd heq (hm u choice)

/-- What holds of the task that steps and of the others holds of all. -/
theorem forall_task_of_others {P : Task → Prop} (ht : c.tasks[t]? = some x) (hx : P x)
    (hothers : ∀ (u : TaskId) y, c.tasks[u]? = some y → u ≠ t → P y) (u : TaskId) (y : Task)
    (hu : c.tasks[u]? = some y) : P y := by
  by_cases hut : u = t
  · subst hut
    cases ht.symm.trans hu
    exact hx
  · exact hothers u y hu hut

section Agreeing

variable {x' : Task} (h : c.apply (.step t choice) = some c') (ht : c.tasks[t]? = some x)
  (hstep : c.taskStep t choice x = some (c₁, x')) (hshared : c'.shared = c₁.shared)
  (ht' : c'.tasks[t]? = some x')

include h ht hstep ht'

/-- No connect prepares its dial. -/
theorem IsUnprepared.agrees (hall : c.IsUnprepared) :
    c'.Agrees (x.milestone?.toList.foldl (Milestone.tally [.dialing, .opened]) n)
      (x.milestone?.toList.foldl (Milestone.tally [.begun, .opened]) n) := by
  have hothers (u : TaskId) (y : Task) (hu : c'.tasks[u]? = some y) (hut : u ≠ t) :
      y.isPreparing = false := not_preparing_of_step h hut (hall u) hu
  obtain ⟨hbegun, url, rfl⟩ | ⟨hbegun, hx'⟩ := taskStep_prepares hstep (hall t x ht)
  · exact .prepares ht' rfl hothers (.inl rfl) (by simp [hbegun, Milestone.tally])
  · refine .unprepared (forall_task_of_others ht' hx' hothers) ?_
    cases hx : x.milestone? with
    | none => rfl
    | some e =>
      cases e with
      | begun => exact absurd hx hbegun
      | dialing => cases (hall t x ht).symm.trans (preparing_of_dialing hx)
      | opened | attempt => rfl

include hshared

/-- The connect that prepares its dial steps. -/
theorem agrees_of_preparing {p : ConnectPhase} (hx : x = .connect p)
    (hp : (Task.connect p).isPreparing = true)
    (hothers : ∀ (u : TaskId) (y : Task), c.tasks[u]? = some y → u ≠ t → y.isPreparing = false)
    (hshut : isTurning p = true ∨ c.shared.closed = true) :
    c'.Agrees (x.milestone?.toList.foldl (Milestone.tally [.dialing, .opened]) n)
      (x.milestone?.toList.foldl (Milestone.tally [.begun, .opened]) 0) := by
  subst hx
  have hothers' (u : TaskId) (y : Task) (hu : c'.tasks[u]? = some y) (hut : u ≠ t) :
      y.isPreparing = false :=
    not_preparing_of_step h hut (fun y hu => hothers u y hu hut) hu
  obtain ⟨epoch, rfl, rfl⟩ | ⟨hnone, p', rfl, hp', hshut'⟩ := (taskStep_cases hstep).prepares hp
  · exact .unprepared (forall_task_of_others ht' rfl hothers') rfl
  · rw [hnone]
    exact .prepares ht' hp' hothers' (hshared ▸ hshut' hshut) rfl

/-- Another task steps than the connect that prepares its dial. The connect rests, so the client is
closed and nobody begins an attempt. -/
theorem agrees_of_other {v : TaskId} {p : ConnectPhase} (run : Cooperative config turn c)
    (keeps : c.keepsTurn turn (.step t choice) = true) (hvt : v ≠ t)
    (hv : c.tasks[v]? = some (.connect p)) (hp : (Task.connect p).isPreparing = true)
    (hothers : ∀ (u : TaskId) (y : Task), c.tasks[u]? = some y → u ≠ v → y.isPreparing = false)
    (hshut : isTurning p = true ∨ c.shared.closed = true)
    (hbegun : x.milestone? ≠ some .begun) :
    c'.Agrees (x.milestone?.toList.foldl (Milestone.tally [.dialing, .opened]) n)
      (x.milestone?.toList.foldl (Milestone.tally [.begun, .opened]) 0) := by
  have hclosed : c.shared.closed = true := hshut.resolve_left fun hturning => by
    cases (not_rests_of_isTurning hturning).symm.trans (run.others_rest keeps hvt hv)
  have hx : x.isPreparing = false := hothers t x ht hvt.symm
  obtain ⟨hbegins, -⟩ | ⟨-, hx'⟩ := taskStep_prepares hstep hx
  · exact absurd hbegins hbegun
  have hv' : c'.tasks[v]? = some (.connect p) := by
    refine getElem?_unstepped h hv rfl ?_
    rintro choice' ⟨⟩
    exact hvt rfl
  refine .prepares hv' hp (fun u y hu huv => ?_)
    (.inr (hshared ▸ taskStep_closed hstep hx hclosed)) ?_
  · by_cases hut : u = t
    · subst hut
      cases ht'.symm.trans hu
      exact hx'
    · exact not_preparing_of_step h hut (fun y hu => hothers u y hu huv) hu
  · cases hmilestone : x.milestone? with
    | none => rfl
    | some e =>
      cases e with
      | attempt =>
        obtain ⟨epoch, rfl⟩ := count_of_attempt hmilestone
        cases run.not_admitted hclosed ht
      | _ => rfl

end Agreeing

theorem Agrees.step (ha : c.Agrees n k) (run : Cooperative config turn c)
    (keeps : c.keepsTurn turn (.step t choice) = true) (h : c.step t choice = some c')
    (halone : ∀ x, c.tasks[t]? = some x → x.milestone? = some .begun → c.IsUnprepared) :
    c'.Agrees
      ((milestone c (.step t choice) c').foldl (Milestone.tally [.dialing, .opened]) n)
      ((milestone c (.step t choice) c').foldl (Milestone.tally [.begun, .opened]) k) := by
  obtain ⟨x, c₁, x', ht, hstep, heq⟩ := step_eq_some_iff.1 h
  have ht' : c'.tasks[t]? = some x' := heq ▸ (taskStep_cases hstep).getElem?_set_self ht
  have hshared : c'.shared = c₁.shared := heq ▸ rfl
  rw [milestone_step ht]
  cases ha with
  | unprepared hall hnk => exact hnk ▸ hall.agrees h ht hstep ht'
  | @prepares v p hv hp hothers hshut hzero =>
    subst hzero
    by_cases hvt : v = t
    · subst hvt
      exact agrees_of_preparing h ht hstep hshared ht' (Option.some.inj (ht.symm.trans hv)) hp
        hothers hshut
    · have hbegun : x.milestone? ≠ some .begun := fun hbegun => by
        cases hp.symm.trans (halone x ht hbegun v _ hv)
      exact agrees_of_other h ht hstep hshared ht' run keeps hvt hv hp hothers hshut hbegun

/-- The connect that a move begins while another one prepares its dial. -/
def overlap (c : Client) (m : Move) (c' : Client) : List TaskId :=
  match m with
  | .step t _ =>
    if .begun ∈ milestone c m c' ∧ c.tasks.any Task.isPreparing = true then [t] else []
  | _ => []

/-- The connects that begin while another one prepares its dial. -/
def overlaps (c : Client) (ms : List Move) : List TaskId := noted overlap c ms

theorem isUnprepared_of_overlap (h : overlap c (.step t choice) c' = []) (ht : c.tasks[t]? = some x)
    (hx : x.milestone? = some .begun) : c.IsUnprepared := by
  intro u y hu
  rw [← Bool.not_eq_true]
  intro hy
  have hany : c.tasks.any Task.isPreparing = true :=
    List.any_eq_true.2 ⟨y, List.mem_of_getElem? hu, hy⟩
  simp [overlap, milestone_step ht, hx, hany] at h

theorem agrees_of_run (h : (Client.fresh config).run none ms = some (turn, c))
    (halone : (Client.fresh config).overlaps ms = []) :
    c.Agrees (Milestone.attemptsSince [.dialing, .opened] ((Client.fresh config).milestones ms))
      (Milestone.attemptsSince [.begun, .opened] ((Client.fresh config).milestones ms)) := by
  induction ms using List.reverseRecOn generalizing turn c with
  | nil =>
    cases h
    refine .unprepared (fun t x ht => ?_) rfl
    cases ht
  | append_singleton ms m ih =>
    obtain ⟨turn₁, c₁, hms, keeps, hm, rfl⟩ := run_concat.1 h
    rw [overlaps, noted_concat (follow_of_run hms) hm, List.append_eq_nil_iff] at halone
    obtain ⟨hbefore, hoverlap⟩ := halone
    rw [attemptsSince_concat (follow_of_run hms) hm, attemptsSince_concat (follow_of_run hms) hm]
    have run : Cooperative config turn₁ c₁ := .continues .fresh (continues_run hms)
    by_cases hstep : ∃ t choice, m = .step t choice
    · obtain ⟨t, choice, rfl⟩ := hstep
      exact (ih hms hbefore).step run keeps hm fun x ht => isUnprepared_of_overlap hoverlap ht
    · have hm' (t choice) : m ≠ .step t choice := fun heq => hstep ⟨t, choice, heq⟩
      rw [milestone_of_outer hm']
      exact (ih hms hbefore).outer hm hm'

theorem step_count {epoch : Nat} (h : c.step t choice = some c')
    (ht : c.tasks[t]? = some (.reconnect epoch .count)) : ∃ sample, choice = .drawn sample ∧
      c'.tasks[t]? = some (.reconnect epoch ((c.shared.config.backoff.delay? c.shared.attempts
        sample).elim .done (.sleeping c.shared.attempts))) := by
  obtain ⟨x, c₁, x', hx, hraw, rfl⟩ := step_eq_some_iff.1 h
  cases hx.symm.trans ht
  have ht' := (taskStep_cases hraw).getElem?_set_self ht
  obtain ⟨⟨c₂, p'⟩, hreconnect, heq⟩ := Option.map_eq_some_iff.1 hraw
  cases heq
  obtain ⟨sample, rfl, rfl, rfl⟩ := reconnectStep_count hreconnect
  exact ⟨sample, rfl, ht'⟩

/-- In a cooperative run the number an attempt gets, which its delay is computed with, is the number
of attempts since a connect last came to dial or the link was last opened, whichever is later, as
long as the counter does not overflow. It is the same to count from where the connects begin, unless
one has begun while another one was preparing its dial. -/
theorem attempts_are_numbered (h : (Client.fresh config).run none ms = some (turn, c)) {epoch : Nat}
    (ht : c.tasks[t]? = some (.reconnect epoch .count))
    (keeps : c.keepsTurn turn (.step t choice) = true) (hstep : c.step t choice = some c')
    (hfew : Milestone.attemptsSince [.dialing, .opened] ((Client.fresh config).milestones ms) <
      2 ^ 32) :
    ∃ attempt sample, choice = .drawn sample ∧
      c'.tasks[t]? = some (.reconnect epoch
        ((c.shared.config.backoff.delay? attempt sample).elim .done (.sleeping attempt))) ∧
      attempt.toNat =
        Milestone.attemptsSince [.dialing, .opened] ((Client.fresh config).milestones ms) ∧
      ((Client.fresh config).overlaps ms = [] → attempt.toNat =
        Milestone.attemptsSince [.begun, .opened] ((Client.fresh config).milestones ms)) := by
  have run : Cooperative config turn c := .continues .fresh (continues_run h)
  obtain ⟨sample, rfl, ht'⟩ := step_count hstep ht
  have hnumber : c.shared.attempts.toNat =
      Milestone.attemptsSince [.dialing, .opened] ((Client.fresh config).milestones ms) := by
    obtain ⟨u, y, hu, hy, -⟩ | ⟨-, hattempts⟩ := reckons_of_run h
    · have hut : u ≠ t := by
        rintro rfl
        cases ht.symm.trans hu
        cases hy
      cases (not_restarting_of_rests (run.others_rest keeps hut hu)).symm.trans hy
    · rw [hattempts, UInt32.toNat_ofNat', Nat.mod_eq_of_lt hfew]
  refine ⟨c.shared.attempts, sample, rfl, ht', hnumber, fun halone => hnumber.trans ?_⟩
  cases agrees_of_run h halone with
  | unprepared hall heq => exact heq
  | @prepares u p hu hp hothers hshut hzero =>
    have hut : u ≠ t := by
      rintro rfl
      cases ht.symm.trans hu
    obtain hturning | hclosed := hshut
    · cases (not_rests_of_isTurning hturning).symm.trans (run.others_rest keeps hut hu)
    · cases run.not_admitted hclosed ht

/-- The epoch of a reconnect task that begins an attempt. -/
def countingEpoch? (c : Client) (t : TaskId) : Option Nat :=
  match c.tasks[t]? with
  | some (.reconnect epoch .count) => some epoch
  | _ => none

theorem getElem?_of_countingEpoch? {epoch : Nat} (h : c.countingEpoch? t = some epoch) :
    c.tasks[t]? = some (.reconnect epoch .count) := by
  unfold countingEpoch? at h
  split at h
  next ht =>
    cases h
    exact ht
  next => cases h

/-- A reconnect task that sleeps goes on to dial; the dial fails, and it begins its next attempt. -/
def redialing (t : TaskId) : List Move :=
  .step t .elapsed :: List.replicate 5 (.step t .run) ++
    [.step t (.dialFailed .notConnected), .step t .run, .step t .run]

theorem attempts_are_numbered_reopening : ∃ ms turn c c',
    (Client.fresh .standard).run none ms = some (turn, c) ∧
    c.tasks[3]? = some (.reconnect 1 .count) ∧
    c.keepsTurn turn (.step 3 (.drawn .zero)) = true ∧ c.step 3 (.drawn .zero) = some c' ∧
    Milestone.attemptsSince [.begun, .opened] ((Client.fresh .standard).milestones ms) = 1 ∧
    ∃ attempt : UInt32, attempt.toNat = 1 ∧ c'.tasks[3]? = some (.reconnect 1
      ((c.shared.config.backoff.delay? attempt .zero).elim .done (.sleeping attempt))) := by
  have hrun : ((fresh .standard).run none (reopening ++ redialing 3)).any (fun r =>
      (r.2.step 3 (.drawn .zero)).any fun _ => r.2.countingEpoch? 3 = some 1 ∧
      r.2.keepsTurn r.1 (.step 3 (.drawn .zero)) = true ∧
      (fresh .standard).overlaps (reopening ++ redialing 3) = [] ∧
      Milestone.attemptsSince [.dialing, .opened]
        ((fresh .standard).milestones (reopening ++ redialing 3)) = 1) = true := by
    decide +kernel
  obtain ⟨⟨turn, c⟩, hc, hrun⟩ := Option.any_eq_true _ _ |>.1 hrun
  obtain ⟨c', hstep, hfacts⟩ := Option.any_eq_true _ _ |>.1 hrun
  obtain ⟨hcount, keeps, halone, hnumber⟩ := of_decide_eq_true hfacts
  have ht := getElem?_of_countingEpoch? hcount
  obtain ⟨attempt, sample, hdrawn, ht', hattempt, hbegun⟩ :=
    attempts_are_numbered hc ht keeps hstep (by rw [hnumber]; decide)
  cases hdrawn
  exact ⟨_, turn, c, c', hc, ht, keeps, hstep, (hbegun halone).symm.trans (hattempt.trans hnumber),
    attempt, hattempt.trans hnumber, ht'⟩

/-- Two connects, and the first waits in its close while the second opens the link. The link is
lost, and twice dialed in vain; then the first connect sets the counter back and comes to dial. -/
def preparingTwice : List Move :=
  connecting 0 ++ .start (.connect socket) :: List.replicate 8 (.step 3 .run) ++ connecting 4 ++
    .step 5 (.frame .ended) :: List.replicate 10 (.step 5 .run) ++
    [.step 7 .run, .step 7 .run, .step 7 (.drawn .zero)] ++ redialing 7 ++
    [.step 7 (.drawn .zero), .step 3 (.written none), .step 1 .cancelled, .step 1 .run,
      .step 2 .cancelled] ++ List.replicate 12 (.step 3 .run) ++ redialing 7

/-- The third attempt since a connect began gets the number zero. -/
theorem attempts_numbered_anew : ∃ ms turn c epoch delay c',
    (Client.fresh .standard).run none ms = some (turn, c) ∧
    c.tasks[7]? = some (.reconnect epoch .count) ∧
    c.keepsTurn turn (.step 7 (.drawn .zero)) = true ∧ c.step 7 (.drawn .zero) = some c' ∧
    Milestone.attemptsSince [.begun, .opened] ((Client.fresh .standard).milestones ms) = 2 ∧
    c'.tasks[7]? = some (.reconnect epoch (.sleeping 0 delay)) := by
  have hrun : ((fresh .standard).run none preparingTwice).any (fun r =>
      (r.2.step 7 (.drawn .zero)).any fun _ =>
      (r.2.shared.config.backoff.delay? 0 .zero).any fun _ => r.2.countingEpoch? 7 = some 3 ∧
      r.2.keepsTurn r.1 (.step 7 (.drawn .zero)) = true ∧ r.2.shared.attempts = 0 ∧
      Milestone.attemptsSince [.begun, .opened] ((fresh .standard).milestones preparingTwice) = 2) =
      true := by
    decide +kernel
  obtain ⟨⟨turn, c⟩, hc, hrun⟩ := Option.any_eq_true _ _ |>.1 hrun
  obtain ⟨c', hstep, hrun⟩ := Option.any_eq_true _ _ |>.1 hrun
  obtain ⟨delay, hdelay, hfacts⟩ := Option.any_eq_true _ _ |>.1 hrun
  obtain ⟨hcount, keeps, hzero, hnumber⟩ := of_decide_eq_true hfacts
  have ht := getElem?_of_countingEpoch? hcount
  refine ⟨_, turn, c, 3, delay, c', hc, ht, keeps, hstep, hnumber, ?_⟩
  obtain ⟨sample, hdrawn, ht'⟩ := step_count hstep ht
  cases hdrawn
  rw [ht', hzero, hdelay]
  rfl

end Client
end DuplexRpc
