import DuplexRpc.Proofs.Cancellation.Signals

/-!
Tokens by groups. The tokens that copying connects share a signal and no other token has it, so a
token is cancelled exactly if some token of its group has been, and a waiter is told so by the first
poll after that. What is done with one group leaves the others as they are.
-/
namespace DuplexRpc.Tokens

variable {t t' : Tokens} {es : List Event} {op : Op} {a : Answer} {i s w : Nat}
  {origin origin' : List Nat}

theorem Concerns.mono {es es' : List Event} (hsub : es ⊆ es') (h : Concerns es i op) :
    Concerns es' i op := by
  cases op with
  | create => exact h
  | poll w =>
    obtain ⟨j, hw, hgroup⟩ := h
    exact ⟨j, hsub hw, hgroup.mono hsub⟩
  | _ => exact SameGroup.mono hsub h

/-- All that a token, its signal and its waiters show is what it was. -/
structure Untouched (es : List Event) (i s : Nat) (t t' : Tokens) : Prop where
  token : t'.signal? i = t.signal? i
  signal : t'.raised s = t.raised s
  waiter : ∀ w, WaitsFor es w i → t'.waiters[w]? = t.waiters[w]?

theorem Accounts.untouched (h : Accounts es origin t) (hi : origin[i]? = some s)
    (hop : ¬ Concerns es i op) (hc : t.Change op a t') : Untouched es i s t t' := by
  have hlt : i < t.tokens.length := h.lineage.length ▸ (List.getElem?_eq_some_iff.1 hi).1
  have hself : SameGroup es i i := .refl i
  cases hc with
  | create =>
    exact ⟨signal?_concat_of_lt hlt rfl, raised_append t s, fun _ _ => rfl⟩
  | clone hj =>
    exact ⟨signal?_concat_of_lt hlt rfl, rfl, fun _ _ => rfl⟩
  | @cancel j r hj =>
    refine ⟨rfl, ?_, fun _ _ => rfl⟩
    have hne : r ≠ s := by
      rintro rfl
      exact hop (h.lineage.group j i r (h.lineage.own j r hj) hi)
    simp [raised, List.getD_eq_getElem?_getD, List.getElem?_set_ne hne]
  | drop j =>
    refine ⟨?_, rfl, fun _ _ => rfl⟩
    have hne : i ≠ j := by
      rintro rfl
      exact hop hself
    simp [hne]
  | wait hj =>
    refine ⟨rfl, rfl, fun w hw => ?_⟩
    obtain ⟨r, finished, -, hx, -⟩ := h.waiting w i hw
    exact List.getElem?_append_left (List.getElem?_eq_some_iff.1 hx).1
  | @finish v r hx hr =>
    refine ⟨rfl, rfl, fun w hw => List.getElem?_set_ne ?_⟩
    rintro rfl
    exact hop ⟨i, hw, hself⟩
  | idle => exact ⟨rfl, rfl, fun _ _ => rfl⟩

theorem Accounts.untouched_run (h : Accounts es origin t) (hi : origin[i]? = some s)
    (ops : List Op) (hops : ∀ op ∈ ops, ¬ Concerns (es ++ t.events ops) i op) :
    Untouched es i s t (t.run ops) := by
  induction ops generalizing t es origin with
  | nil => exact ⟨rfl, rfl, fun _ _ => rfl⟩
  | cons op ops ih =>
    have hfirst : Untouched es i s t (t.step op).1 :=
      h.untouched hi (fun hop => hops op List.mem_cons_self (hop.mono (List.subset_append_left ..)))
        (change_step t op)
    obtain ⟨origin', hext, hstep⟩ := h.step op
    have hrest := ih hstep (getElem?_extend hext hi) fun op' hop' => by
      rw [List.append_assoc]
      exact hops op' (List.mem_cons_of_mem _ hop')
    exact ⟨hrest.token.trans hfirst.token, hrest.signal.trans hfirst.signal, fun w hw =>
      (hrest.waiter w (List.mem_append_left _ hw)).trans (hfirst.waiter w hw)⟩

theorem Accounts.isCancelled_iff (h : Accounts es origin t) (hlive : IsLive es i) :
    t.isCancelled i = true ↔ GroupCancelled es i := by
  obtain ⟨s, hs⟩ := (h.lineage.live i).1 hlive
  rw [groupCancelled_iff h.lineage h.raising (h.lineage.own i s hs), isCancelled, hs]
  rfl

theorem answer_poll {finished : Bool} (h : t.waiters[w]? = some ⟨s, finished⟩) :
    (t.step (.poll w)).2 =
      .polled (if finished then .finished else if t.raised s then .ready else .pending) := by
  rw [step, h]
  cases finished with
  | true => rfl
  | false => cases hs : t.raised s <;> simp [hs]

theorem GroupCancelled.mono {es es' : List Event} (hext : es <+: es')
    (h : GroupCancelled es i) : GroupCancelled es' i := by
  obtain ⟨rest, rfl⟩ := hext
  obtain ⟨c, ⟨before, e, after, rfl, he⟩, hgroup⟩ := h
  exact ⟨c, ⟨before, e, after ++ rest, by simp, he⟩, hgroup.append _⟩

theorem IsPolledLate.groupCancelled (h : IsPolledLate es w i) : GroupCancelled es i := by
  obtain ⟨before, e, after, rfl, -, -, hgroup⟩ := h
  exact hgroup.mono (List.prefix_append ..)

/-- A waiter is told to go on waiting while the group is not cancelled, that the wait is over by the
first poll after that, and afterwards that it has been told so. -/
theorem Accounts.answer_poll (h : Accounts es origin t) (hw : WaitsFor es w i) :
    ((t.step (.poll w)).2 = .polled .pending ↔ ¬ GroupCancelled es i) ∧
    ((t.step (.poll w)).2 = .polled .ready ↔ GroupCancelled es i ∧ ¬ IsPolledLate es w i) ∧
    ((t.step (.poll w)).2 = .polled .finished ↔ IsPolledLate es w i) := by
  obtain ⟨s, finished, hi, hx, hfinished⟩ := h.waiting w i hw
  have hlate : IsPolledLate es w i → GroupCancelled es i := IsPolledLate.groupCancelled
  rw [Tokens.answer_poll hx, ← hfinished, groupCancelled_iff h.lineage h.raising hi]
  rw [← hfinished, groupCancelled_iff h.lineage h.raising hi] at hlate
  cases finished with
  | true => simp [hlate rfl]
  | false => cases t.raised s <;> simp

theorem Untouched.isCancelled_eq (h : Untouched es i s t t') (hl : Lineage es origin t)
    (hi : origin[i]? = some s) : t'.isCancelled i = t.isCancelled i := by
  rw [isCancelled, h.token, isCancelled]
  cases hr : t.signal? i with
  | none => rfl
  | some r =>
    obtain rfl : s = r := Option.some.inj (hi.symm.trans (hl.own i r hr))
    exact h.signal

theorem Untouched.answer_poll (h : Untouched es i s t t') (hwaiting : Waiting es origin t)
    (hi : origin[i]? = some s) (hw : WaitsFor es w i) :
    (t'.step (.poll w)).2 = (t.step (.poll w)).2 := by
  obtain ⟨r, finished, hr, hx, -⟩ := hwaiting w i hw
  obtain rfl : s = r := Option.some.inj (hi.symm.trans hr)
  rw [Tokens.answer_poll hx, Tokens.answer_poll ((h.waiter w hw).trans hx), h.signal]

/-- Whatever has been done, a token that is there is cancelled exactly if a token of its group has
been cancelled, and the polls of a waiter are pending before that, ready once, and over. Operations
on other groups change neither the token nor what its waiters are told, nor who is in its group. -/
theorem groups_share_one_signal (ops : List Op) :
    (∀ i, IsLive (empty.events ops) i →
      ((empty.run ops).isCancelled i = true ↔ GroupCancelled (empty.events ops) i)) ∧
    (∀ w i, WaitsFor (empty.events ops) w i →
      (((empty.run ops).step (.poll w)).2 = .polled .pending ↔
        ¬ GroupCancelled (empty.events ops) i) ∧
      (((empty.run ops).step (.poll w)).2 = .polled .ready ↔
        GroupCancelled (empty.events ops) i ∧ ¬ IsPolledLate (empty.events ops) w i) ∧
      (((empty.run ops).step (.poll w)).2 = .polled .finished ↔
        IsPolledLate (empty.events ops) w i)) ∧
    ∀ more i, IsMade (empty.events ops) i →
      (∀ op ∈ more, ¬ Concerns (empty.events (ops ++ more)) i op) →
      (IsLive (empty.events (ops ++ more)) i ↔ IsLive (empty.events ops) i) ∧
      (empty.run (ops ++ more)).isCancelled i = (empty.run ops).isCancelled i ∧
      (∀ w, WaitsFor (empty.events ops) w i → ((empty.run (ops ++ more)).step (.poll w)).2 =
        ((empty.run ops).step (.poll w)).2) ∧
      ∀ j, IsMade (empty.events ops) j →
        (SameGroup (empty.events (ops ++ more)) i j ↔ SameGroup (empty.events ops) i j) := by
  obtain ⟨origin, h⟩ := accounts_run ops
  refine ⟨fun i hlive => h.isCancelled_iff hlive, fun w i hw => h.answer_poll hw,
    fun more i hi hmore => ?_⟩
  rw [events_append] at hmore ⊢
  rw [run_append]
  obtain ⟨s, hs⟩ : ∃ s, origin[i]? = some s := ⟨_, List.getElem?_eq_getElem (h.lineage.made i hi)⟩
  obtain ⟨origin', hext, h'⟩ := h.run more
  have hsame := h.untouched_run hs more hmore
  refine ⟨?_, hsame.isCancelled_eq h.lineage hs, fun w hw => hsame.answer_poll h.waiting hs hw,
    fun j hj => h.lineage.sameGroup_iff h'.lineage hext (List.subset_append_left ..) hi hj⟩
  rw [h'.lineage.live, hsame.token, h.lineage.live]

/-- Two tokens of one group and one of another, a waiter for each group. -/
def twoGroups : List Op := [.create, .clone 0, .create, .wait 1, .wait 2]

/-- The first group is cancelled, and the token that did it is dropped at once. -/
def firstCancelled : List Op := [.cancel 0, .drop 0]

theorem groups_share_one_signal_first_cancelled :
    (IsLive (empty.events (twoGroups ++ firstCancelled)) 1 ∧
      GroupCancelled (empty.events (twoGroups ++ firstCancelled)) 1) ∧
    (WaitsFor (empty.events (twoGroups ++ firstCancelled)) 0 1 ∧
      ¬ IsPolledLate (empty.events (twoGroups ++ firstCancelled)) 0 1) ∧
    (IsMade (empty.events twoGroups) 2 ∧
      (∀ op ∈ firstCancelled, ¬ Concerns (empty.events (twoGroups ++ firstCancelled)) 2 op) ∧
      WaitsFor (empty.events twoGroups) 1 2 ∧
      ((empty.run (twoGroups ++ firstCancelled)).step (.poll 1)).2 =
        ((empty.run twoGroups).step (.poll 1)).2) := by
  have hlive : IsLive (empty.events (twoGroups ++ firstCancelled)) 1 :=
    ⟨[(.create, .index 0)], (.clone 0, .index 1), _, rfl, rfl, by decide⟩
  have hfirst : WaitsFor (empty.events (twoGroups ++ firstCancelled)) 0 1 := by
    unfold WaitsFor
    decide
  have hsecond : WaitsFor (empty.events twoGroups) 1 2 := by
    unfold WaitsFor
    decide
  have hmade : IsMade (empty.events twoGroups) 2 := ⟨(.create, .index 2), by decide, rfl⟩
  have hcopies (i j : Nat) (h : IsCopy (empty.events (twoGroups ++ firstCancelled)) i j) :
      (i == 2) = (j == 2) := by
    obtain ⟨rfl, rfl⟩ : i = 0 ∧ j = 1 := by
      simpa [IsCopy, twoGroups, firstCancelled, events, step, signal?, empty] using h
    rfl
  have hother : ∀ op ∈ firstCancelled,
      ¬ Concerns (empty.events (twoGroups ++ firstCancelled)) 2 op := by
    have hapart : ¬ SameGroup (empty.events (twoGroups ++ firstCancelled)) 0 2 :=
      fun hgroup => absurd (hgroup.eq_of_copies hcopies) (by decide)
    simpa [Concerns, firstCancelled] using hapart
  obtain ⟨hcancelled, hpolls, -⟩ := groups_share_one_signal (twoGroups ++ firstCancelled)
  have hready := (hpolls 0 1 hfirst).2.1.1 rfl
  have hsame := (groups_share_one_signal twoGroups).2.2 _ 2 hmade hother
  exact ⟨⟨hlive, (hcancelled 1 hlive).1 rfl⟩, ⟨hfirst, hready.2⟩, hmade, hother, hsecond,
    hsame.2.2.1 1 hsecond⟩

end DuplexRpc.Tokens
