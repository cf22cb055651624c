import DuplexRpc.Proofs.Client.Closing
import DuplexRpc.Proofs.Client.Epochs

/-!
What is left of a connect that another one has overtaken. While it opens, it leaves the link of the
other alone; but its opening can only fail, and the close that follows a failure takes down whatever
link there is.
-/
namespace DuplexRpc

/-- Where a connect that opens under an epoch that is over can get to by its own steps. -/
def ConnectPhase.Prospect (e : Nat) (s s' : Shared) : ConnectPhase → Prop
  | opening e' p => e' = e ∧ p.hasInstalled = false ∧ e ≠ s'.epoch ∧ s.Keeps s'
  | failing q _ => q.Toll s s'
  | done result =>
    (∃ failure, result = .error failure) ∧ s'.link.installed = none ∧ s'.status = .closed
  | _ => False

/-- Where a connect that waits in the close of its failure can get to by its own steps. -/
def ConnectPhase.Ending (failure : Failure) (s s' : Shared) : ConnectPhase → Prop
  | failing q failure' => failure' = failure ∧ q.isLate = true ∧ s.Keeps s'
  | done _ => s'.link = s.link ∧ s'.status = s.status ∧
      s'.pending = (s.pending.failAll .connectionClosed).2
  | _ => False

/-- What becomes of such a connect in a run, when a generation was installed and some calls waited.
Up to the section that takes the link out, the close of a failure keeps the turn. -/
def ConnectPhase.Fate (g : Generation) (calls : Nat) (hasTurn : Prop) (s : Shared) :
    ConnectPhase → Prop
  | opening e p => p.hasInstalled = false ∧ e < s.epoch
  | failing q _ =>
    (q.keepsLink = true → hasTurn) ∧ (q.keepsLink = false → s.link.installed ≠ some g)
  | done result => (∃ failure, result = .error failure) ∧ s.link.installed ≠ some g ∧
      s.pending.SettledBelow calls
  | _ => False

namespace Client

variable {config : Config} {c c' : Client} {t a : TaskId} {choice : Choice} {s : Shared}
  {q : ClosePhase}

theorem connectStep_prospect {e : Nat} {p p' : ConnectPhase}
    (h : c.connectStep t choice p = some (c', p')) (hp : p.Prospect e s c.shared) :
    p'.Prospect e s c'.shared := by
  cases p with
  | opening e' q =>
    obtain ⟨rfl, hq, he, hkeeps⟩ := hp
    obtain ⟨⟨c₁, next⟩, hopen, heq⟩ := Option.map_eq_some_iff.1 h
    obtain ⟨hlink, hstatus, hpending, hnext⟩ := openStep_stale hopen he hq
    have hkept : s.Keeps c₁.shared :=
      ⟨hlink.trans hkeeps.link, hstatus.trans hkeeps.status, hpending.trans hkeeps.pending⟩
    rcases hnext with ⟨q', rfl, hq'⟩ | ⟨failure, rfl⟩
    · cases heq
      exact ⟨rfl, hq', openStep_epoch hopen ▸ he, hkept⟩
    · cases heq
      exact hkept
  | failing q failure =>
    obtain ⟨⟨c₁, next⟩, hclose, heq⟩ := Option.map_eq_some_iff.1 h
    rcases closeStep_toll hclose hp with ⟨q', rfl, hq'⟩ | ⟨rfl, hend⟩
    · cases heq
      exact hq'
    · cases heq
      exact ⟨⟨failure, rfl⟩, hend⟩
  | done result => cases h
  | _ => exact hp.elim

theorem steps_connect_induct {P : Shared → ConnectPhase → Prop}
    (hstep : ∀ (c : Client) (choice : Choice) (p : ConnectPhase) (c' : Client) (p' : ConnectPhase),
      c.connectStep a choice p = some (c', p') → P c.shared p → P c'.shared p')
    {choices : List Choice} (h : c.steps a choices = some c') {p : ConnectPhase}
    (ha : c.tasks[a]? = some (.connect p)) (hp : P c.shared p) :
    ∃ p', c'.tasks[a]? = some (.connect p') ∧ P c'.shared p' := by
  refine steps_induct (P := fun c => ∃ p, c.tasks[a]? = some (.connect p) ∧ P c.shared p)
    (fun c choice c' h ⟨p, ha, hp⟩ => ?_) h ⟨p, ha, hp⟩
  rcases connect_after_apply (m := .step a choice) h ha with ⟨hm, -⟩ | ⟨_, c₁, p', heq, hc, hs, ha'⟩
  · exact absurd rfl (hm choice)
  · cases heq
    exact ⟨p', ha', hs ▸ hstep c choice p c₁ p' hc hp⟩

theorem connect_ne {p p' : ConnectPhase} (ha : c.tasks[a]? = some (.connect p)) (hne : p ≠ p') :
    c.tasks[a]? ≠ some (.connect p') := by
  intro ha'
  rw [ha, Option.some.injEq, Task.connect.injEq] at ha'
  exact hne ha'

/-- The turn of an overtaken connect ends with everything as it was, if it still opens, and
otherwise with the link gone. -/
theorem steps_prospect {e : Nat} {p : OpenPhase} {choices : List Choice}
    (h : c.steps a choices = some c') (ha : c.tasks[a]? = some (.connect (.opening e p)))
    (he : e ≠ c.shared.epoch) (hp : p.hasInstalled = false) (hwaits : c'.waits a = true) :
    ((∃ q, c'.tasks[a]? = some (.connect (.opening e q))) ∧ c.shared.Keeps c'.shared) ∨
      ((∀ q, c'.tasks[a]? ≠ some (.connect (.opening e q))) ∧
        c'.shared.link.installed = none ∧ c'.shared.status = .closed) := by
  obtain ⟨p', ha', hp'⟩ := steps_connect_induct
    (P := fun s p' => p'.Prospect e c.shared s)
    (fun _ _ _ _ _ => connectStep_prospect) h ha ⟨rfl, hp, he, rfl, rfl, rfl⟩
  rw [waits_connect ha'] at hwaits
  cases p' with
  | opening e' q =>
    obtain ⟨rfl, -, -, hkeeps⟩ := hp'
    exact .inl ⟨⟨q, ha'⟩, hkeeps⟩
  | failing q failure =>
    refine .inr ⟨fun q' => connect_ne ha' (by simp), ?_⟩
    cases q with
    | mark | bump | detach | publish | signal => cases hwaits
    | _ => exact hp'
  | done result => exact .inr ⟨fun q' => connect_ne ha' (by simp), hp'.2⟩
  | _ => exact hp'.elim

theorem connectStep_fate {g : Generation} {calls : Nat} {hasTurn hasTurn' : Prop}
    {p p' : ConnectPhase}
    (h : c.connectStep t choice p = some (c', p')) (hle : g ≤ c.shared.link.generation)
    (hlisted : c.shared.pending.Listed) (hcalls : calls ≤ c.shared.pending.registrations.length)
    (hturn : hasTurn') (hp : p.Fate g calls hasTurn c.shared) :
    p'.Fate g calls hasTurn' c'.shared := by
  cases p with
  | opening e q =>
    obtain ⟨hq, he⟩ := hp
    obtain ⟨⟨c₁, next⟩, hopen, heq⟩ := Option.map_eq_some_iff.1 h
    obtain ⟨-, -, -, hnext⟩ := openStep_stale hopen (Nat.ne_of_lt he) hq
    rcases hnext with ⟨q', rfl, hq'⟩ | ⟨failure, rfl⟩
    · cases heq
      exact ⟨hq', openStep_epoch hopen ▸ he⟩
    · cases heq
      exact ⟨fun _ => hturn, nofun⟩
  | failing q failure =>
    obtain ⟨⟨c₁, next⟩, hclose, heq⟩ := Option.map_eq_some_iff.1 h
    rcases closeStep_fate hclose hle hp.2 with ⟨q', rfl, hq'⟩ | ⟨rfl, hne, rfl⟩
    · cases heq
      exact ⟨fun _ => hturn, hq'⟩
    · cases heq
      exact ⟨⟨failure, rfl⟩, hne, (hlisted.settledBelow_failAll _).mono hcalls⟩
  | done result => cases h
  | _ => exact hp.elim

/-- Steps of others leave an overtaken connect to its fate. -/
theorem fate_of_ages {g : Generation} {calls : Nat} {hasTurn hasTurn' : Prop} {s s' : Shared}
    {p : ConnectPhase} (hages : s.Ages s') (hle : g ≤ s.link.generation)
    (hturn : ∀ q failure, p = .failing q failure → q.keepsLink = true → hasTurn → hasTurn')
    (hp : p.Fate g calls hasTurn s) : p.Fate g calls hasTurn' s' := by
  cases p with
  | opening e q => exact ⟨hp.1, Nat.lt_of_lt_of_le hp.2 hages.epoch⟩
  | failing q failure =>
    exact ⟨fun hq => hturn q failure rfl hq (hp.1 hq), fun hq => hages.installed_ne hle (hp.2 hq)⟩
  | done result => exact ⟨hp.1, hages.installed_ne hle hp.2.1, hages.pending.settledBelow hp.2.2⟩
  | _ => exact hp.elim

/-- In any continuation of a cooperative run the overtaken connect meets its fate. -/
theorem Continues.fate {turn turn' : Option TaskId} {g : Generation} {calls : Nat}
    {p : ConnectPhase} (run : Cooperative config turn c) (h : Continues turn c turn' c')
    (hle : g ≤ c.shared.link.generation) (hcalls : calls ≤ c.shared.pending.registrations.length)
    (ha : c.tasks[a]? = some (.connect p)) (hp : p.Fate g calls (turn = some a) c.shared) :
    ∃ p', c'.tasks[a]? = some (.connect p') ∧ p'.Fate g calls (turn' = some a) c'.shared ∧
      g ≤ c'.shared.link.generation ∧ calls ≤ c'.shared.pending.registrations.length := by
  induction h with
  | here => exact ⟨p, ha, hp, hle, hcalls⟩
  | @move turn' c' c'' m before keeps h ih =>
    obtain ⟨p', ha', hp', hle', hcalls'⟩ := ih
    have hages := apply_ages h
    have hle'' := Nat.le_trans hle' hages.generation
    have hcalls'' := Nat.le_trans hcalls' hages.pending.length_le
    rcases connect_after_apply h ha' with ⟨hm, ha''⟩ | ⟨choice, c₁, p'', rfl, hstep, hc, ha''⟩
    · refine ⟨p', ha'', fate_of_ages hages hle' ?_ hp', hle'', hcalls''⟩
      rintro q failure rfl hq rfl
      have hwaits := waits_of_keepsTurn keeps hm
      rw [waits_connect ha', ConnectPhase.waits, waits_of_keepsLink hq] at hwaits
      cases hwaits
    · have hlisted := (run.continues before).reachable.sound_listed.2
      exact ⟨p'', ha'', hc ▸ connectStep_fate hstep hle' hlisted hcalls' rfl hp', hle'', hcalls''⟩

theorem connectStep_ending {failure : Failure} {p p' : ConnectPhase}
    (h : c.connectStep t choice p = some (c', p')) (hp : p.Ending failure s c.shared) :
    p'.Ending failure s c'.shared := by
  cases p with
  | failing q failure' =>
    obtain ⟨rfl, hq, hkeeps⟩ := hp
    obtain ⟨⟨c₁, next⟩, hclose, heq⟩ := Option.map_eq_some_iff.1 h
    obtain ⟨hlink, hstatus, hend⟩ := closeStep_late hclose hq
    rcases hend with ⟨q', rfl, hq', hpending⟩ | ⟨-, rfl, rfl⟩
    · cases heq
      exact ⟨rfl, hq', hlink.trans hkeeps.link, hstatus.trans hkeeps.status,
        hpending.trans hkeeps.pending⟩
    · cases heq
      exact ⟨hkeeps.link, hkeeps.status, by rw [update, Shared.failAll, hkeeps.pending]⟩
  | done result => cases h
  | _ => exact hp.elim

/-- The own steps of a connect that has failed and waits in its close: the link stays, and what
waits for an answer is failed at the end. -/
theorem steps_failing {failure : Failure} {choices : List Choice}
    (h : c.steps a choices = some c') (ha : c.tasks[a]? = some (.connect (.failing q failure)))
    (hq : q.isLate = true) :
    ((∃ q', c'.tasks[a]? = some (.connect (.failing q' failure))) ∧ c.shared.Keeps c'.shared) ∨
      ((∀ q', c'.tasks[a]? ≠ some (.connect (.failing q' failure))) ∧
        c'.shared.link = c.shared.link ∧ c'.shared.status = c.shared.status ∧
        c'.shared.pending = (c.shared.pending.failAll .connectionClosed).2) := by
  obtain ⟨p', ha', hp'⟩ := steps_connect_induct
    (P := fun s p' => p'.Ending failure c.shared s)
    (fun _ _ _ _ _ => connectStep_ending) h ha ⟨rfl, hq, rfl, rfl, rfl⟩
  cases p' with
  | failing q' failure' =>
    obtain ⟨rfl, -, hkeeps⟩ := hp'
    exact .inl ⟨⟨q', ha'⟩, hkeeps⟩
  | done result => exact .inr ⟨fun q' => connect_ne ha' (by simp), hp'⟩
  | _ => exact hp'.elim

theorem isLate_of_paused {failure : Failure} {turn : Option TaskId}
    (run : Cooperative config turn c) (hturn : turn ≠ some a)
    (ha : c.tasks[a]? = some (.connect (.failing q failure))) : q.isLate = true := by
  rcases run.paused ha hturn with ⟨text, hstart⟩ | ⟨held, isDone, hwaits⟩
  · cases hstart
  · cases q with
    | mark | bump | detach | publish | signal => cases hwaits
    | _ => rfl

/-- A connect `a` has been overtaken while it was opening its link or was closing after a failure,
and another one has opened the link. The own steps of `a` leave that link, the status and the
waiting calls alone exactly as long as it is still opening, or still closing while some call waits.
However the opening of `a` ends, by then the link of the other is gone and its calls have stopped
waiting. -/
theorem overtaken_connect_disturbs_iff_ended {turn : Option TaskId} {g : Generation}
    (run : Cooperative config turn c) (hturn : turn ≠ some a)
    (hg : c.shared.link.installed = some g) (hopened : c.shared.status = .opened) :
    (∀ e p, c.tasks[a]? = some (.connect (.opening e p)) → e ≠ c.shared.epoch →
      (∀ choices c', c.steps a choices = some c' → c'.waits a = true →
        ((c'.shared.link.installed = some g ∧ c'.shared.status = .opened ∧
            c'.shared.pending = c.shared.pending) ↔
          ∃ q, c'.tasks[a]? = some (.connect (.opening e q)))) ∧
      ∀ turn' c' result, Continues turn c turn' c' →
        c'.tasks[a]? = some (.connect (.done result)) →
          (∃ failure, result = .error failure) ∧ c'.shared.link.installed ≠ some g ∧
            ∀ n, c.shared.pending.slot? n = some .waiting →
              c'.shared.pending.slot? n ≠ some .waiting) ∧
    ∀ q failure, c.tasks[a]? = some (.connect (.failing q failure)) →
      ∀ choices c', c.steps a choices = some c' →
        ((c'.shared.link.installed = some g ∧ c'.shared.status = .opened ∧
            c'.shared.pending = c.shared.pending) ↔
          (∃ q', c'.tasks[a]? = some (.connect (.failing q' failure))) ∨
            c.shared.pending.entries = []) := by
  refine ⟨fun e p ha he => ?_, fun q failure ha choices c' h => ?_⟩
  · have hp : p.hasInstalled = false := by
      cases hp : p.hasInstalled with
      | false => rfl
      | true => exact absurd (run.installs_in_turn ha hp).1 hturn
    refine ⟨fun choices c' h hwaits => ?_, fun turn' c' result h ha' => ?_⟩
    · rcases steps_prospect h ha he hp hwaits with ⟨hopening, hkeeps⟩ | ⟨hover, hnone, -⟩
      · refine ⟨fun _ => hopening, fun _ => ⟨?_, ?_, hkeeps.pending⟩⟩
        · rw [hkeeps.link, hg]
        · rw [hkeeps.status, hopened]
      · constructor
        · rintro ⟨hg', -⟩
          rw [hnone] at hg'
          cases hg'
        · rintro ⟨q, hq⟩
          exact absurd hq (hover q)
    · have hlt : e < c.shared.epoch := Nat.lt_of_le_of_ne (run.reachable.epoch_le ha rfl) he
      obtain ⟨p', hp', hfate, -, -⟩ := h.fate run (run.reachable.installed_le hg)
        (Nat.le_refl _) ha ⟨hp, hlt⟩
      rw [ha', Option.some.injEq, Task.connect.injEq] at hp'
      subst hp'
      obtain ⟨hfailed, hgone, hsettled⟩ := hfate
      refine ⟨hfailed, hgone, fun n hn => hsettled.2 n ?_⟩
      obtain ⟨r, hr, -⟩ := Option.map_eq_some_iff.1 hn
      exact (List.getElem?_eq_some_iff.1 hr).1
  · rcases steps_failing h ha (isLate_of_paused run hturn ha) with
      ⟨hfailing, hkeeps⟩ | ⟨hover, hlink, hstatus, hpending⟩
    · refine ⟨fun _ => .inl hfailing, fun _ => ⟨?_, ?_, hkeeps.pending⟩⟩
      · rw [hkeeps.link, hg]
      · rw [hkeeps.status, hopened]
    · rw [hlink, hstatus, hpending]
      constructor
      · rintro ⟨-, -, hsame⟩
        exact .inr (congrArg PendingTable.entries hsame).symm
      · rintro (⟨q', hq'⟩ | hempty)
        · exact absurd hq' (hover q')
        · exact ⟨hg, hopened, PendingTable.failAll_eq_self hempty _⟩

/-- Two connects one after the other; the first still dials when the second has opened the link and
a call waits over it. -/
def overtaking : List Move :=
  .start (.connect socket) :: List.replicate 18 (.step 0 .run) ++
    .start (.connect socket) :: List.replicate 18 (.step 1 .run) ++
    .step 1 (.upgraded (some Protocol.subprotocol)) :: List.replicate 4 (.step 1 .run) ++
    .start (.call ⟨"m", .null, none, none⟩) :: List.replicate 7 (.step 4 .run) ++
    [.step 4 (.written none)]

/-- The dial of the first connect takes too long, and its close comes to its end. -/
def overtakenEnd : List Move :=
  .step 0 .elapsed :: List.replicate 7 (.step 0 .run) ++
    [.step 0 (.written none), .step 2 .cancelled, .step 2 .run, .step 3 .cancelled] ++
    List.replicate 4 (.step 0 .run)

/-- The epoch of a connect that opens a link. -/
def openingEpoch? (c : Client) (a : TaskId) : Option Nat :=
  match c.tasks[a]? with
  | some (.connect (.opening e _)) => some e
  | _ => none

/-- The end of a connect that is over: a failure or none. -/
def connectEnd? (c : Client) (a : TaskId) : Option (Option Failure) :=
  match c.tasks[a]? with
  | some (.connect (.done (.ok _))) => some none
  | some (.connect (.done (.error failure))) => some (some failure)
  | _ => none

theorem opening_of_openingEpoch? {e : Nat} (h : c.openingEpoch? a = some e) :
    ∃ p, c.tasks[a]? = some (.connect (.opening e p)) := by
  unfold openingEpoch? at h
  split at h
  next e' p ha =>
    cases h
    exact ⟨p, ha⟩
  next => cases h

theorem connected_of_connectEnd? (h : c.connectEnd? a = some none) :
    c.tasks[a]? = some (.connect (.done (.ok ()))) := by
  unfold connectEnd? at h
  split at h
  next ha => exact ha
  all_goals cases h

theorem failed_of_connectEnd? {failure : Failure} (h : c.connectEnd? a = some (some failure)) :
    c.tasks[a]? = some (.connect (.done (.error failure))) := by
  unfold connectEnd? at h
  split at h
  next => cases h
  next failure' ha =>
    cases h
    exact ha
  next => cases h

theorem run_overtaking : ∃ c c₁ c', (fresh .standard).run none overtaking = some (some 4, c) ∧
    c.steps 0 (.elapsed :: List.replicate 7 .run) = some c₁ ∧
    c.run (some 4) overtakenEnd = some (some 0, c') ∧
    (c.openingEpoch? 0 = some 1 ∧ c.connectEnd? 1 = some none ∧ c.shared.epoch = 2 ∧
      c.shared.link.installed = some 3 ∧ c.shared.status = .opened ∧
      c.shared.pending.slot? 0 = some .waiting) ∧
    (c₁.shared.link.installed = none ∧ c₁.shared.status = .closed) ∧
    c'.connectEnd? 0 = some (some (.timeout Config.standard.connectTimeout)) ∧
    c'.shared.pending.slot? 0 = some (.answered (.error .connectionClosed)) := by
  have hrun : ((fresh .standard).run none overtaking).any (fun r =>
      (r.2.steps 0 (.elapsed :: List.replicate 7 .run)).any fun c₁ =>
      (r.2.run (some 4) overtakenEnd).any fun r' =>
      r.1 = some 4 ∧ r'.1 = some 0 ∧
      (r.2.openingEpoch? 0 = some 1 ∧ r.2.connectEnd? 1 = some none ∧ r.2.shared.epoch = 2 ∧
        r.2.shared.link.installed = some 3 ∧ r.2.shared.status = .opened ∧
        r.2.shared.pending.slot? 0 = some .waiting) ∧
      (c₁.shared.link.installed = none ∧ c₁.shared.status = .closed) ∧
      r'.2.connectEnd? 0 = some (some (.timeout Config.standard.connectTimeout)) ∧
      r'.2.shared.pending.slot? 0 = some (.answered (.error .connectionClosed))) = true := by
    decide +kernel
  obtain ⟨⟨turn, c⟩, hc, hrun⟩ := Option.any_eq_true _ _ |>.1 hrun
  obtain ⟨c₁, hc₁, hrun⟩ := Option.any_eq_true _ _ |>.1 hrun
  obtain ⟨⟨turn', c'⟩, hc', hfacts⟩ := Option.any_eq_true _ _ |>.1 hrun
  obtain ⟨rfl, rfl, hfacts⟩ := of_decide_eq_true hfacts
  exact ⟨c, c₁, c', hc, hc₁, hc', hfacts⟩

/-- A connect whose dial times out after another has opened the link, at work on that link. -/
theorem overtaken_connect_takes_down_link : ∃ c c₁ c' p,
    Cooperative .standard (some 4) c ∧
    (c.tasks[0]? = some (.connect (.opening 1 p)) ∧ c.shared.epoch = 2) ∧
    (c.tasks[1]? = some (.connect (.done (.ok ()))) ∧ c.shared.link.installed = some 3 ∧
      c.shared.status = .opened ∧ c.shared.pending.slot? 0 = some .waiting) ∧
    c.steps 0 (.elapsed :: List.replicate 7 .run) = some c₁ ∧
    c₁.shared.link.installed = none ∧ c₁.shared.status = .closed ∧
    Continues (some 4) c (some 0) c' ∧
    c'.tasks[0]? = some (.connect (.done (.error (.timeout Config.standard.connectTimeout)))) ∧
    c'.shared.pending.slot? 0 = some (.answered (.error .connectionClosed)) := by
  obtain ⟨c, c₁, c', hrun, hsteps, hend, ⟨ha, hb, hepoch, hg, hopened, hcall⟩, ⟨hnone, hclosed⟩,
    hfailed, hanswer⟩ := run_overtaking
  obtain ⟨p, ha⟩ := opening_of_openingEpoch? ha
  have run : Cooperative .standard (some 4) c := .continues .fresh (continues_run hrun)
  exact ⟨c, c₁, c', p, run, ⟨ha, hepoch⟩, ⟨connected_of_connectEnd? hb, hg, hopened, hcall⟩, hsteps,
    hnone, hclosed, continues_run hend, failed_of_connectEnd? hfailed, hanswer⟩

theorem overtaken_connect_disturbs_overtaking : ∃ c p, Cooperative .standard (some 4) c ∧
    c.tasks[0]? = some (.connect (.opening 1 p)) ∧ 1 ≠ c.shared.epoch ∧
    c.shared.link.installed = some 3 ∧ c.shared.status = .opened ∧
    ∀ choices c', c.steps 0 choices = some c' → c'.waits 0 = true →
      ((c'.shared.link.installed = some 3 ∧ c'.shared.status = .opened ∧
          c'.shared.pending = c.shared.pending) ↔
        ∃ q, c'.tasks[0]? = some (.connect (.opening 1 q))) := by
  obtain ⟨c, -, -, hrun, -, -, ⟨ha, -, hepoch, hg, hopened, -⟩, -⟩ := run_overtaking
  obtain ⟨p, ha⟩ := opening_of_openingEpoch? ha
  have run : Cooperative .standard (some 4) c := .continues .fresh (continues_run hrun)
  have he : 1 ≠ c.shared.epoch := by omega
  exact ⟨c, p, run, ha, he, hg, hopened,
    ((overtaken_connect_disturbs_iff_ended run (by decide) hg hopened).1 1 p ha he).1⟩

end Client
end DuplexRpc
