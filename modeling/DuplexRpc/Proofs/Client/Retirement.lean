import DuplexRpc.Proofs.Client.Bookkeeping
import DuplexRpc.Proofs.Client.ReplyLinks

/-!
Calls and the end of their link. Whoever fails everything that waits fails the calls of all links
alike. In an orderly run no link is installed then, and nobody is about to send; so a call that
fails with a closed connection has been sent, if at all, on a link that has been taken out.
-/
namespace DuplexRpc

theorem Response.outcome_ne_connectionClosed (r : Response) :
    r.outcome ≠ .error .connectionClosed := by
  unfold outcome
  cases r.error <;> exact nofun

theorem Slot.failed_of_map {f : Slot → Slot} {s : Option Slot}
    (hf : ∀ s, f s = .answered (.error .connectionClosed) →
      s = .answered (.error .connectionClosed))
    (h : s.map f = some (.answered (.error .connectionClosed))) :
    s = some (.answered (.error .connectionClosed)) := by
  obtain ⟨slot, rfl, hslot⟩ := Option.map_eq_some_iff.1 h
  exact congrArg some (hf slot hslot)

namespace PendingTable

variable {t t' : PendingTable} {n k : Nat}

def IsFailed (t : PendingTable) (n : Nat) : Prop :=
  t.slot? n = some (.answered (.error .connectionClosed))

theorem IsFailed.of_register {id : String} (hk : t'.IsFailed k)
    (h : t.register id = .ok (n, t')) : k ≠ n ∧ t.IsFailed k := by
  rw [IsFailed, slot?_register h] at hk
  split at hk
  · cases hk
  next hne => exact ⟨hne, hk⟩

theorem IsFailed.of_close {id : String} {f : Slot → Slot}
    (hf : ∀ s, f s = .answered (.error .connectionClosed) →
      s = .answered (.error .connectionClosed))
    (hk : (t.close id f).2.IsFailed k) : t.IsFailed k := by
  rw [IsFailed, slot?_close] at hk
  split at hk
  · exact Slot.failed_of_map hf hk
  · exact hk

theorem IsFailed.of_leave (hk : (t.leave n).IsFailed k) : t.IsFailed k := by
  have hdropped : (t.dropReceiver n).IsFailed k := by
    obtain heq | ⟨id, -, -, hslot⟩ := dropGuard_cases (t.dropReceiver n) n
    · exact heq ▸ hk
    · refine .of_close (fun s hs => ?_) ((hslot k).symm.trans hk)
      cases s <;> first | exact hs | cases hs
  rw [IsFailed, dropReceiver, slot?_updateSlot] at hdropped
  split at hdropped
  · exact Slot.failed_of_map (f := fun _ => .dropped) (fun _ hs => by cases hs) hdropped
  · exact hdropped

theorem IsFailed.of_settle {r : Response} (hk : (r.settle t).IsFailed k) : t.IsFailed k := by
  unfold Response.settle at hk
  split at hk
  · refine .of_close (fun s hs => ?_) hk
    cases s with
    | waiting => exact absurd (Slot.answered.inj hs) r.outcome_ne_connectionClosed
    | _ => exact hs
  · exact hk

end PendingTable

namespace CallPhase

/-- A call that reports a closed connection does so when `gone`; `before` is what holds until it
sends. -/
def Honest (pending : PendingTable) (before gone : Prop) : CallPhase → Prop
  | sending _ n _ => ¬pending.IsFailed n ∧ before
  | awaitAnswer n => pending.IsFailed n → gone
  | leaving _ outcome | done outcome => outcome = some (.error .connectionClosed) → gone
  | _ => before

variable {p : CallPhase} {pending pending' : PendingTable} {before before' gone gone' : Prop}

/-- Another step does no harm as long as it fails no call. -/
theorem Honest.mono (hp : p.Honest pending before gone)
    (hpending : ∀ n, pending'.IsFailed n → pending.IsFailed n) (hbefore : before → before')
    (hgone : gone → gone') : p.Honest pending' before' gone' := by
  cases p with
  | sending id n q => exact ⟨fun hn => hp.1 (hpending n hn), hbefore hp.2⟩
  | awaitAnswer n => exact fun hn => hgone (hp (hpending n hn))
  | leaving n outcome | done outcome => exact fun houtcome => hgone (hp houtcome)
  | _ => exact hbefore hp

/-- Nor does it if everything is gone, and the call is not in the line. -/
theorem Honest.of_gone (hp : p.Honest pending before gone) (hgone : gone')
    (hbefore : before → before') (hout : ∀ id n q, p ≠ .sending id n q) :
    p.Honest pending' before' gone' := by
  cases p with
  | sending id n q => exact absurd rfl (hout id n q)
  | awaitAnswer n => exact fun _ => hgone
  | leaving n outcome | done outcome => exact fun _ => hgone
  | _ => exact hbefore hp

end CallPhase

def Task.Honest (pending : PendingTable) (gone : Prop) : Task → Prop
  | call _ p => p.Honest pending gone gone
  | heart _ (.probing p) => p.Honest pending True gone
  | _ => True

namespace Client

variable {config : Config} {c c' c₁ : Client} {t u : TaskId} {choice : Choice}
  {turn : Option TaskId} {task task' x : Task} {m : Move} {g : Generation}

theorem CallStep.failed {spec : CallSpec} {p : CallPhase} {next : Next CallPhase (Option Outcome)}
    (h : CallStep c t spec choice p c₁ next) {n : Nat} (hn : c₁.shared.pending.IsFailed n) :
    c.shared.pending.IsFailed n := by
  cases h with
  | register h => exact (hn.of_register h).2
  | send id n h | sent id n h | unsent id n h => cases h <;> exact hn
  | leave n outcome => exact hn.of_leave
  | _ => exact hn

/-- The task is about to fail everything that waits. -/
inductive FailsAll : Task → Prop where
  | close (f : CloseFrame) : FailsAll (f.next (.phase .fail))
  | opening (f : OpenFrame) : FailsAll (f.next (.phase .failRetired))
  | pass (g : Generation) (closed : Bool) : FailsAll (.receive g (.disconnecting (.fail closed)))

/-- Nobody else fails a call. -/
theorem TaskStep.failed (h : TaskStep c t choice task c₁ task') (hd : task.isDiscard = false) :
    FailsAll task ∨
      ∀ n, c₁.shared.pending.IsFailed n → c.shared.pending.IsFailed n := by
  cases h with
  | opening f h =>
    cases h with
    | failRetired => exact .inl (.opening f)
    | _ => exact .inr fun _ hn => hn
  | closing f h =>
    cases h with
    | fail => exact .inl (.close f)
    | _ => exact .inr fun _ hn => hn
  | calling f h => exact .inr fun _ => h.failed
  | starting f h => cases h <;> exact .inr fun _ hn => hn
  | disconnecting g h =>
    cases h with
    | failClosed | fail => exact .inl (.pass g _)
    | _ => exact .inr fun _ hn => hn
  | replying g response h => cases h <;> exact .inr fun _ hn => hn
  | connect h => cases h <;> exact .inr fun _ hn => hn
  | receive g h =>
    cases h with
    | settle r => exact .inr fun _ hn => hn.of_settle
    | _ => exact .inr fun _ hn => hn
  | heart g h => cases h <;> exact .inr fun _ hn => hn
  | reconnect epoch h => cases h <;> exact .inr fun _ hn => hn
  | discard h => cases hd

/-- In an orderly run no link is installed when everything is failed, and no call is in the line. -/
theorem unlinked_of_failsAll {s : Shared} {l : List Stake} {calm : Prop}
    (h : FailsAll x) (hagrees : x.Agrees s) (hx : x.Fits s l calm) :
    s.link.installed = none ∧ .caller ∉ l := by
  cases h with
  | close f =>
    have hagrees : s.Agrees := (f.agrees_next (.phase .fail)).1 hagrees
    obtain ⟨hclosed, hvacant⟩ := (f.fits_phase .fail).1 hx
    exact ⟨hagrees.unlinked (.inl (hagrees.closed.1 hclosed)), hvacant.1⟩
  | opening f => exact ((f.fits_phase .failRetired).1 hx).elim
  | pass g closed => exact ⟨Shared.Agrees.unlinked hagrees hx.1.symm, hx.2⟩

theorem FailsAll.not_rests (h : FailsAll x) : rests x = false := by
  cases h with
  | close f => cases f <;> rfl
  | opening f => cases f <;> rfl
  | pass g closed => rfl

/-- What the task has written has gone to links that have been taken out. -/
def AllGone (c : Client) (t : TaskId) : Prop :=
  ∀ e ∈ c.shared.sent, e.writer = t → c.Gone e.generation

theorem AllGone.of_unlinked (h : c.Numbered) (hinstalled : c.shared.link.installed = none) :
    c.AllGone t :=
  fun e he _ => ⟨h.sent e he, by simp [hinstalled]⟩

theorem AllGone.ages (h : c.AllGone t) (hages : c.shared.Ages c'.shared)
    (hsent : ∀ e ∈ c'.shared.sent, e.writer = t → e ∈ c.shared.sent) : c'.AllGone t :=
  fun e he hwriter => (h e (hsent e he hwriter) hwriter).ages hages

section Call

variable {spec : CallSpec} {p : CallPhase} {next : Next CallPhase (Option Outcome)}
  {pending : PendingTable} {before before' gone gone' : Prop}

theorem honest_of_isOutside (hp : p.isOutside = true) : p.Honest pending before gone ↔ before := by
  cases p <;> first | exact .rfl | cases hp

/-- A step of a call that is let in, registered and not yet answered. -/
theorem CallStep.honest (h : CallStep c t spec choice p c₁ next)
    (hp : p.Honest c.shared.pending before gone)
    (hlive : ∀ n, p = .awaitAnswer n → c.shared.pending.slot? n ≠ some .closed)
    (hbefore : c₁.shared.sent = c.shared.sent → before → before')
    (hgone : c₁.shared.sent = c.shared.sent → gone → gone') :
    match next with
    | .phase p' => p'.Honest c₁.shared.pending before' gone'
    | .over outcome => outcome = some (.error .connectionClosed) → before' ∨ gone' := by
  cases h with
  | look hp₀ hp₁ => exact (honest_of_isOutside hp₁).2 (hbefore rfl ((honest_of_isOutside hp₀).1 hp))
  | turnedAway hp₀ => exact fun _ => .inl (hbefore rfl ((honest_of_isOutside hp₀).1 hp))
  | enter hp₀ => exact hbefore rfl ((honest_of_isOutside hp₀).1 hp)
  | allocate => exact hbefore rfl hp
  | register h => exact ⟨fun hn => (hn.of_register h).1 rfl, hbefore rfl hp⟩
  | refuse id failure => exact fun _ => .inl (hbefore rfl hp)
  | send id n h =>
    have hsent : c₁.shared.sent = c.shared.sent := by cases h <;> rfl
    have hpending : c₁.shared.pending = c.shared.pending := by cases h <;> rfl
    exact ⟨hpending ▸ hp.1, hbefore hsent hp.2⟩
  | sent id n h =>
    have hpending : c₁.shared.pending = c.shared.pending := by cases h; rfl
    exact fun hn => absurd (hpending ▸ hn) hp.1
  | unsent id n h => cases h <;> exact nofun
  | dropSending id n h dropped => exact nofun
  | answered h =>
    intro houtcome
    cases houtcome
    exact hgone rfl (hp h)
  | forgotten h => exact absurd h (hlive _ rfl)
  | late n | cancelled n | dropWaiting n dropped => exact nofun
  | leave n outcome => exact fun houtcome => .inr (hgone rfl (hp houtcome))

end Call

def Honest (c : Client) : Prop :=
  ∀ (t : TaskId) x, c.tasks[t]? = some x → x.Honest c.shared.pending (c.AllGone t)

@[simp] theorem CallFrame.honest_phase (f : CallFrame) {p : CallPhase} {pending : PendingTable}
    {gone : Prop} : (f.next (.phase p)).Honest pending gone ↔
      p.Honest pending (match f with | .call _ => gone | .heart _ => True) gone := by
  cases f <;> exact .rfl

/-- Only calls and probes have to be. -/
theorem TaskStep.honest (h : TaskStep c t choice task c₁ task') {gone gone' : Prop}
    (hp : task.Honest c.shared.pending gone)
    (hlive : ∀ n, task.stand = .holds n → c.shared.pending.slot? n ≠ some .closed)
    (hgone : c₁.shared.sent = c.shared.sent → gone → gone') :
    task'.Honest c₁.shared.pending gone' := by
  cases h with
  | @calling f _ p next h =>
    have hlive' (n : Nat) (heq : p = .awaitAnswer n) :
        c.shared.pending.slot? n ≠ some .closed :=
      hlive n (by simp [heq, CallPhase.stand])
    cases f with
    | call spec =>
      have hnext := h.honest hp hlive' hgone hgone
      cases next with
      | phase p' => exact hnext
      | _ => exact fun houtcome => (hnext houtcome).elim id id
    | heart g =>
      have hnext := h.honest hp hlive' (fun _ _ => trivial) hgone
      rcases next with p' | ⟨_ | failure | value⟩
      case phase => exact hnext
      case over.some.error => cases failure <;> trivial
      all_goals trivial
  | @opening f _ _ next h => cases f <;> rcases next with _ | ⟨_ | _⟩ <;> trivial
  | @closing f _ _ next h => cases f <;> cases next <;> trivial
  | @starting f _ _ next h => cases f <;> cases next <;> trivial
  | @disconnecting g _ _ next h => cases next <;> trivial
  | @replying g response _ _ next h => cases next <;> trivial
  | heart g h => cases h <;> trivial
  | _ => trivial

theorem honest_of_isNew {pending : PendingTable} {gone : Prop} (h : x.isNew = true) :
    x.Honest pending gone := by
  unfold Task.isNew at h
  split at h <;> trivial

/-- Who sends a call and rests stands in the line. -/
theorem caller_of_sending {id : String} {n : Nat} {q : SendPhase} (f : CallFrame)
    (hrest : rests (f.next (.phase (.sending id n q))) = true) :
    (f.next (.phase (.sending id n q))).stake? = some .caller := by
  cases f <;> cases q <;> first | rfl | cases hrest

theorem honest_mono {pending pending' : PendingTable} {gone gone' : Prop}
    (h : x.Honest pending gone) (hpending : ∀ n, pending'.IsFailed n → pending.IsFailed n)
    (hgone : gone → gone') : x.Honest pending' gone' := by
  cases x with
  | call spec p => exact CallPhase.Honest.mono h hpending hgone hgone
  | heart g p =>
    cases p with
    | probing p => exact CallPhase.Honest.mono h hpending id hgone
    | _ => trivial
  | _ => trivial

theorem honest_of_gone {pending pending' : PendingTable} {gone gone' : Prop}
    (h : x.Honest pending gone) (hgone : gone') (hrest : rests x = true)
    (hstake : x.stake? ≠ some .caller) : x.Honest pending' gone' := by
  cases x with
  | call spec p =>
    refine CallPhase.Honest.of_gone h hgone (fun _ => hgone) fun id n q hp => ?_
    exact hstake (hp ▸ caller_of_sending (.call spec) (hp ▸ hrest))
  | heart g p =>
    cases p with
    | probing p =>
      refine CallPhase.Honest.of_gone h hgone (fun _ => trivial) fun id n q hp => ?_
      exact hstake (hp ▸ caller_of_sending (.heart g) (hp ▸ hrest))
    | _ => trivial
  | _ => trivial

/-- One step of an orderly run. -/
theorem Honest.step (h : c.Honest) (scene : Scene config c t task)
    (hstep : TaskStep c t choice task c₁ task') (hages : c.shared.Ages c₁.shared)
    (hlive : ∀ n, task.stand = .holds n → c.shared.pending.slot? n ≠ some .closed) :
    Honest ⟨c₁.shared, c₁.tasks.set t task'⟩ := by
  have hd := scene.kept.not_discard scene.present
  have hnumbered := scene.reachable.numbered scene.kept
  intro u x hu
  obtain ⟨rfl, rfl⟩ | ⟨hut, hu⟩ | ⟨-, -, hnew⟩ := (hstep.grows hd).cases_task hu
  · exact hstep.honest (h u task scene.present) hlive fun hsent hgone =>
      hgone.ages hages fun e he _ => hsent ▸ he
  · have hsent (e : Sent) (he : e ∈ c₁.shared.sent) (hwriter : e.writer = u) :
        e ∈ c.shared.sent :=
      (hstep.cases_sent hd he).resolve_right fun hself => hut (hwriter.symm.trans hself.1)
    obtain hfails | hfails := hstep.failed hd
    · obtain ⟨hinstalled, hcaller⟩ :=
        unlinked_of_failsAll hfails scene.agrees (scene.inOrder.fits t task scene.present)
      refine honest_of_gone (h u x hu) ((AllGone.of_unlinked hnumbered hinstalled).ages hages hsent)
        (scene.others hut hu) fun hstake => ?_
      exact hcaller ((scene.reachable.lined scene.kept).mem_stakes hu hstake)
    · exact honest_mono (h u x hu) hfails fun hgone => hgone.ages hages hsent
  · exact honest_of_isNew hnew.1

theorem Reachable.stand_live (run : Reachable config c) (hfew : c.shared.issued < 2 ^ 64)
    (ht : c.tasks[t]? = some task) (n : Nat) (hn : task.stand = .holds n) :
    c.shared.pending.slot? n ≠ some .closed := by
  obtain ⟨ms, hms⟩ := reachable_iff_follow.1 run
  obtain h | ⟨outcome, h⟩ :=
    (kept_of_follow hms hfew).live t n ((stand_of_getElem? ht).trans hn)
  · exact h ▸ nofun
  · exact h ▸ nofun

theorem Orderly.honest (run : Orderly config turn c) (hfew : c.shared.issued < 2 ^ 64) :
    c.Honest := by
  induction run with
  | fresh => intro t x ht; cases ht
  | @move turn c c' m before permitted keeps h ih =>
    have hages := apply_ages h
    have hfew₀ := Nat.lt_of_le_of_lt (apply_deals h).issued_le hfew
    have hhonest := ih hfew₀
    have hreachable := before.cooperative.reachable
    cases apply_cases h with
    | start request =>
      intro u x hu
      obtain hu | ⟨rfl, rfl⟩ := cases_spawn_index hu
      · exact hhonest u x hu
      · cases request with
        | call spec =>
          -- what has been written has been written by tasks that were there
          intro e he hwriter
          obtain ⟨x, hx, -⟩ := (hreachable.aimed (Orderly.isKept before)).sent e he
          exact absurd (List.getElem?_eq_some_iff.1 hx).1 (hwriter ▸ Nat.lt_irrefl _)
        | _ => trivial
    | register method handler registry | cancel token => exact hhonest
    | step ht hstep =>
      exact hhonest.step (Orderly.scene before keeps ht) hstep hages
        (hreachable.stand_live hfew₀ ht)

/-- In an orderly run with fewer than `2 ^ 64` calls and probes, one that ends because the
connection is closed has been sent on no link but one that has been taken out, and so has a call of
the user after its end; and whoever is about to fail what waits finds no link. -/
theorem failed_calls_were_sent_on_gone_links (run : Orderly config turn c)
    (hfew : c.shared.issued < 2 ^ 64) :
    (∀ (t : TaskId) (f : CallFrame) n,
      c.tasks[t]? = some (f.next (.phase (.leaving n (some (.error .connectionClosed))))) →
      ∀ e ∈ c.shared.sent, e.writer = t → c.Gone e.generation) ∧
    (∀ (t : TaskId) spec,
      c.tasks[t]? = some (.call spec (.done (some (.error .connectionClosed)))) →
      ∀ e ∈ c.shared.sent, e.writer = t → c.Gone e.generation) ∧
    ∀ (t : TaskId) x, c.tasks[t]? = some x → FailsAll x → c.shared.link.installed = none := by
  have hhonest := Orderly.honest run hfew
  refine ⟨fun t f n ht => ?_, fun t spec ht => hhonest t _ ht rfl, fun t x ht hfails => ?_⟩
  · exact f.honest_phase.1 (hhonest t _ ht) rfl
  · -- it does not rest, so it has the turn
    have hturn : turn = some t := by
      by_contra hturn
      cases hfails.not_rests.symm.trans (run.cooperative.rests ht hturn)
    subst hturn
    obtain ⟨y, hy, hagrees⟩ := run.cooperative.agrees (Orderly.isKept run)
    cases hy.symm.trans ht
    exact (unlinked_of_failsAll hfails hagrees ((Orderly.inOrder run).fits t x ht)).1

/-- The link of a waiting call is lost; its receiver takes it down, and the call ends. -/
def losing : List Move :=
  .step 1 (.frame .ended) :: List.replicate 10 (.step 1 .run) ++ [.step 3 .settled, .step 3 .run]

theorem failed_calls_were_sent_on_gone_links_losing : ∃ c e, Orderly .standard (some 3) c ∧
    c.shared.issued < 2 ^ 64 ∧
    (∃ spec, c.tasks[3]? = some (.call spec (.done (some (.error .connectionClosed))))) ∧
    e ∈ c.shared.sent ∧ e.writer = 3 ∧ e.generation = 2 ∧ c.Gone e.generation := by
  have hrun : ((fresh .standard).runOrderly none
      (connecting 0 ++ calling 3 ++ losing)).any (fun r =>
      r.1 = some 3 ∧ r.2.shared.issued < 2 ^ 64 ∧
      r.2.callEnd? 3 = some (some (.error .connectionClosed)) ∧
      (r.2.shared.sent.any fun e => e.writer = 3 ∧ e.generation = 2) = true) = true := by
    decide +kernel
  obtain ⟨⟨turn, c⟩, hc, hfacts⟩ := Option.any_eq_true _ _ |>.1 hrun
  obtain ⟨rfl, hfew, hdone, hsent⟩ := of_decide_eq_true hfacts
  obtain ⟨e, he, hfacts⟩ := List.any_eq_true.1 hsent
  obtain ⟨hwriter, hgeneration⟩ := of_decide_eq_true hfacts
  have run : Orderly .standard (some 3) c := .of_run .fresh hc
  obtain ⟨spec, ht⟩ := done_of_callEnd? hdone
  exact ⟨c, e, run, hfew, ⟨spec, ht⟩, he, hwriter, hgeneration,
    (failed_calls_were_sent_on_gone_links run hfew).2.1 3 spec ht e he hwriter⟩

/-- A close waits for the peer, and another connect opens the next link, over which a call is sent.
Then the peer answers the close, the tasks of the old link end, and the close is about to fail what
waits. -/
def outliving : List Move :=
  connecting 0 ++ .start .close :: List.replicate 7 (.step 3 .run) ++ connecting 4 ++ calling 7 ++
    [.step 3 (.written none), .step 1 .cancelled, .step 1 .run, .step 2 .cancelled, .step 3 .run,
      .step 3 .run, .step 3 .run]

/-- The phase of a close that is not over. -/
def closing? (c : Client) (t : TaskId) : Option ClosePhase :=
  match c.tasks[t]? with
  | some (.close p) => p
  | _ => none

theorem close_of_closing? {p : ClosePhase} (h : c.closing? t = some p) :
    c.tasks[t]? = some (.close (some p)) := by
  unfold closing? at h
  split at h
  next q ht =>
    cases h
    exact ht
  next => cases h

/-- A close that fails a call which has been sent on the link of a later connect. -/
theorem close_fails_call_of_next_link : ∃ c c' e, Cooperative .standard (some 3) c ∧ c.IsKept ∧
    c.tasks[3]? = some (.close (some .fail)) ∧ c.shared.pending.slot? 0 = some .waiting ∧
    Continues (some 3) c (some 7) c' ∧
    (∃ spec, c'.tasks[7]? = some (.call spec (.done (some (.error .connectionClosed))))) ∧
    e ∈ c'.shared.sent ∧ e.writer = 7 ∧ c'.shared.link.installed = some e.generation := by
  have hrun : ((fresh .standard).run none outliving).any (fun r =>
      (r.2.run r.1 [.step 3 .run, .step 7 .settled, .step 7 .run]).any fun r' =>
      (r.1 = some 3 ∧ r'.1 = some 7) ∧ (r.2.tasks.all fun x => !x.isDiscard) = true ∧
      r.2.closing? 3 = some .fail ∧ r.2.shared.pending.slot? 0 = some .waiting ∧
      r'.2.callEnd? 7 = some (some (.error .connectionClosed)) ∧
      (r'.2.shared.sent.any fun e =>
        e.writer = 7 ∧ r'.2.shared.link.installed = some e.generation) = true) = true := by
    decide +kernel
  obtain ⟨⟨turn, c⟩, hc, hrun⟩ := Option.any_eq_true _ _ |>.1 hrun
  obtain ⟨⟨turn', c'⟩, hc', hfacts⟩ := Option.any_eq_true _ _ |>.1 hrun
  obtain ⟨⟨rfl, rfl⟩, hkept, hclosing, hslot, hdone, hsent⟩ := of_decide_eq_true hfacts
  obtain ⟨e, he, hfacts⟩ := List.any_eq_true.1 hsent
  obtain ⟨hwriter, hinstalled⟩ := of_decide_eq_true hfacts
  exact ⟨c, c', e, .continues .fresh (continues_run hc), isKept_of_all hkept,
    close_of_closing? hclosing, hslot, continues_run hc', done_of_callEnd? hdone, he, hwriter,
    hinstalled⟩

end Client
end DuplexRpc
