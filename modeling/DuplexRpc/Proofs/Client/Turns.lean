import DuplexRpc.Proofs.Client.Interleaving

/-!
Turns. In a cooperative run every task but the one whose turn it is stands at a wait or has yet to
begin. So what holds whenever all tasks stand so may be broken by one task at a time, as long as it
is restored by its next wait.
-/
namespace DuplexRpc.Client

variable {config : Config} {c c' c₁ : Client} {t u : TaskId} {choice : Choice} {m : Move}
  {task task' x : Task} {turn : Option TaskId}

/-- The task stands where it may have to wait, or has yet to begin. -/
def rests : Task → Bool
  | .connect (.start _) => true
  | .connect p => ConnectPhase.waits false (fun _ => false) p
  | .close (some .mark) => true
  | .close (some p) => ClosePhase.waits false (fun _ => false) p
  | .close none => true
  | .call _ .start => true
  | .call _ p => CallPhase.waits false p
  | .receive _ p => ReceivePhase.waits false p
  | .heart _ p => HeartPhase.waits false p
  | .reconnect _ .checkClosed => true
  | .reconnect _ p => ReconnectPhase.waits false p
  | .discard (.closing .mark) => true
  | .discard p => DiscardPhase.waits p

theorem rests_of_isNew (h : x.isNew = true) : rests x = true := by
  unfold Task.isNew at h
  split at h <;> first | rfl | cases h

@[simp] theorem rests_request (request : Request) : rests request.task = true := by
  cases request <;> rfl

section Waits

variable {held : Bool} {isDone : TaskId → Bool}

theorem SendPhase.waits_false {p : SendPhase} (h : SendPhase.waits held p = true) :
    SendPhase.waits false p = true := by
  cases p <;> first | rfl | cases h

theorem OpenPhase.waits_false {p : OpenPhase} (h : OpenPhase.waits held p = true) :
    OpenPhase.waits false p = true := by
  cases p <;> first | rfl | cases h

theorem ClosePhase.waits_false {p : ClosePhase} (h : ClosePhase.waits held isDone p = true) :
    ClosePhase.waits false (fun _ => false) p = true := by
  cases p with
  | joining tasks => cases tasks <;> first | rfl | cases h
  | _ => first | rfl | cases h

theorem CallPhase.waits_false {p : CallPhase} (h : CallPhase.waits held p = true) :
    CallPhase.waits false p = true := by
  cases p with
  | sending id n p => exact SendPhase.waits_false h
  | _ => first | rfl | cases h

theorem DisconnectPhase.waits_false {p : DisconnectPhase}
    (h : DisconnectPhase.waits held p = true) : DisconnectPhase.waits false p = true := by
  cases p <;> first | rfl | cases h

theorem rests_of_waits (hu : c.tasks[u]? = some x) (h : c.waits u = true) : rests x = true := by
  unfold waits at h
  rw [hu] at h
  cases x with
  | connect p =>
    cases p with
    | closing url p => exact ClosePhase.waits_false h
    | opening epoch p => exact OpenPhase.waits_false h
    | failing p failure => exact ClosePhase.waits_false h
    | _ => first | rfl | cases h
  | close p =>
    cases p with
    | none => rfl
    | some p => cases p with
      | mark => cases h
      | _ => exact ClosePhase.waits_false h
  | call spec p =>
    cases p with
    | start => rfl
    | _ => exact CallPhase.waits_false h
  | receive g p =>
    cases p with
    | replying response p => exact SendPhase.waits_false h
    | disconnecting p => exact DisconnectPhase.waits_false h
    | _ => rfl
  | heart g p =>
    cases p with
    | probing p => exact CallPhase.waits_false h
    | _ => first | rfl | cases h
  | reconnect epoch p =>
    cases p with
    | opening p => exact OpenPhase.waits_false h
    | _ => first | rfl | cases h
  | discard p => cases p <;> first | rfl | cases h

end Waits

theorem rests_of_isDone (h : x.isDone = true) : rests x = true := by
  unfold Task.isDone at h
  split at h <;> first | rfl | cases h

/-- Whoever does not have the turn rests. -/
theorem Cooperative.rests (run : Cooperative config turn c) (hu : c.tasks[u]? = some x)
    (hturn : turn ≠ some u) : rests x = true := by
  induction run generalizing x with
  | fresh => cases hu
  | @move turn c c' m before keeps h ih =>
    cases origin_of_apply h hu with
    | started request hm hx => exact hx ▸ rests_request request
    | spawned hnew => exact rests_of_isNew hnew.1
    | stayed hm hu =>
      by_cases hbefore : turn = some u
      · subst hbefore
        exact rests_of_waits hu (waits_of_keepsTurn keeps hm)
      · exact ih hu hbefore
    | stepped hm hu h =>
      subst hm
      exact absurd rfl hturn
    | aborted hserving hdone => exact rests_of_isDone hdone

/-- Nobody discards the client. -/
def IsKept (c : Client) : Prop := ∀ (t : TaskId) (p : DiscardPhase), c.tasks[t]? ≠ some (.discard p)

/-- A move takes no task away, and none of those that discard the client becomes another one. -/
theorem IsKept.before (h : c.apply m = some c') (hkept : c'.IsKept) : c.IsKept := by
  intro t p ht
  cases apply_cases h with
  | start request =>
    refine hkept t p ?_
    rw [spawn, List.getElem?_append_left (List.getElem?_eq_some_iff.1 ht).1, ht]
  | register method handler registry => exact hkept t p ht
  | cancel token => exact hkept t p ht
  | @step u choice task task' c₁ hu hstep =>
    obtain ⟨htask, hgrows⟩ | ⟨q, q', rfl, rfl, hdiscard⟩ := hstep.grows_or_discards
    · by_cases htu : t = u
      · subst htu
        rw [ht, Option.some.injEq] at hu
        subst hu
        cases htask
      · exact hkept t p (getElem?_other hgrows ht htu)
    · exact hkept u q' (hdiscard.getElem?_set_self hu)

theorem IsKept.not_discard (h : c.IsKept) (ht : c.tasks[t]? = some task) :
    task.isDiscard = false := by
  cases task with
  | discard p => exact absurd ht (h t p)
  | _ => rfl

theorem forall_task_of_all {P : Task → Bool} (h : c.tasks.all P = true) (t : TaskId) (x : Task)
    (hx : c.tasks[t]? = some x) : P x = true :=
  List.all_eq_true.1 h x (List.mem_of_getElem? hx)

theorem isKept_of_all (h : (c.tasks.all fun x => !x.isDiscard) = true) : c.IsKept := by
  intro t p ht
  cases forall_task_of_all h t _ ht

/-- Cooperative runs all of whose moves are permitted. -/
inductive Guided (config : Config) (permits : Client → Move → Prop) :
    Option TaskId → Client → Prop where
  | fresh : Guided config permits none (fresh config)
  | move {turn : Option TaskId} {c c' : Client} (m : Move) (before : Guided config permits turn c)
    (permitted : permits c m) (keeps : c.keepsTurn turn m = true) (h : c.apply m = some c') :
    Guided config permits (m.turn turn) c'

variable {permits : Client → Move → Prop}

theorem Guided.cooperative (run : Guided config permits turn c) : Cooperative config turn c := by
  induction run with
  | fresh => exact .fresh
  | move m before permitted keeps h ih => exact .move m ih keeps h

theorem Cooperative.guided (run : Cooperative config turn c) :
    Guided config (fun _ _ => True) turn c := by
  induction run with
  | fresh => exact .fresh
  | move m before keeps h ih => exact .move m ih trivial keeps h

/-- While the user moves, everybody rests. -/
theorem Cooperative.all_rest (run : Cooperative config turn c) (hall : turn.all c.waits = true)
    (hu : c.tasks[u]? = some x) : Client.rests x = true := by
  by_cases hturn : turn = some u
  · subst hturn
    exact rests_of_waits hu hall
  · exact run.rests hu hturn

/-- While a task steps, the others rest. -/
theorem Cooperative.others_rest (run : Cooperative config turn c)
    (keeps : c.keepsTurn turn (.step t choice) = true) (hut : u ≠ t) (hu : c.tasks[u]? = some x) :
    Client.rests x = true := by
  by_cases hturn : turn = some u
  · subst hturn
    refine rests_of_waits hu (waits_of_keepsTurn keeps fun choice' heq => ?_)
    cases heq
    exact hut rfl
  · exact run.rests hu hturn

/-- An assertion about the clients in which everybody rests, and one for each phase of the task that
has the turn. -/
structure Assertion where
  rest : Client → Prop
  amid : TaskId → Task → Client → Prop

namespace Assertion

variable {a : Assertion}

/-- The assertion for the one whose turn it is. -/
def Holds (a : Assertion) (turn : Option TaskId) (c : Client) : Prop :=
  match turn with
  | none => a.rest c
  | some t => ∃ x, c.tasks[t]? = some x ∧ a.amid t x c

/-- What the assertion says of a resting task is what it says of rest. -/
def Resting (a : Assertion) : Prop :=
  ∀ {c t x}, c.tasks[t]? = some x → Client.rests x = true → (a.amid t x c ↔ a.rest c)

theorem Holds.rest (h : a.Holds turn c) (hresting : a.Resting) (hall : turn.all c.waits = true) :
    a.rest c := by
  cases turn with
  | none => exact h
  | some t =>
    obtain ⟨x, hx, hamid⟩ := h
    exact (hresting hx (rests_of_waits hx hall)).1 hamid

/-- The assertion for a task that steps next. -/
theorem Holds.amid (h : a.Holds turn c) (hresting : a.Resting) (run : Cooperative config turn c)
    (keeps : c.keepsTurn turn (.step t choice) = true) (hx : c.tasks[t]? = some x) :
    a.amid t x c := by
  by_cases hturn : turn = some t
  · subst hturn
    obtain ⟨y, hy, hamid⟩ := h
    cases hx.symm.trans hy
    exact hamid
  · have hall : turn.all c.waits = true := by simpa [keepsTurn, hturn] using keeps
    exact (hresting hx (run.rests hx hturn)).2 (h.rest hresting hall)

/-- The assertion holds at the start, and the permitted moves of the user and of one task among
resting others keep it. -/
structure Stable (a : Assertion) (config : Config) (permits : Client → Move → Prop) : Prop where
  fresh : a.rest (fresh config)
  resting : a.Resting
  outer : ∀ {turn c c' m}, Guided config permits turn c → c.apply m = some c' → permits c m →
    (∀ t choice, m ≠ .step t choice) → a.rest c → a.rest c'
  step : ∀ {turn c t choice x c₁ x'}, Guided config permits turn c → c.IsKept →
    c.keepsTurn turn (.step t choice) = true → c.tasks[t]? = some x → TaskStep c t choice x c₁ x' →
    a.amid t x c → a.amid t x' ⟨c₁.shared, c₁.tasks.set t x'⟩

theorem Stable.holds (h : a.Stable config permits) (run : Guided config permits turn c)
    (hkept : c.IsKept) : a.Holds turn c := by
  induction run with
  | fresh => exact h.fresh
  | @move turn c c' m before permitted keeps hm ih =>
    have hkept₀ := hkept.before hm
    have hbefore := ih hkept₀
    by_cases hstep : ∃ t choice, m = .step t choice
    · obtain ⟨t, choice, rfl⟩ := hstep
      cases apply_cases hm with
      | @step _ _ x x' c₁ hx hstep =>
        have hgrows := hstep.grows (hkept₀.not_discard hx)
        exact ⟨x', getElem?_stepped hgrows (List.getElem?_eq_some_iff.1 hx).1,
          h.step before hkept₀ keeps hx hstep
            (hbefore.amid h.resting before.cooperative keeps hx)⟩
    · have hm' (t choice) : m ≠ .step t choice := fun heq => hstep ⟨t, choice, heq⟩
      have hall : turn.all c.waits = true := by
        cases m with
        | step t choice => exact absurd rfl (hm' t choice)
        | _ => exact keeps
      have hrest' := h.outer before hm permitted hm' (hbefore.rest h.resting hall)
      have hturn : m.turn turn = turn := by
        cases m with
        | step t choice => exact absurd rfl (hm' t choice)
        | _ => rfl
      rw [hturn]
      cases turn with
      | none => exact hrest'
      | some t =>
        obtain ⟨x, hx, -⟩ := hbefore
        have hx' := getElem?_of_outer hm hm' hx
        exact ⟨x, hx', (h.resting hx' (rests_of_waits hx hall)).2 hrest'⟩

end Assertion
end DuplexRpc.Client
