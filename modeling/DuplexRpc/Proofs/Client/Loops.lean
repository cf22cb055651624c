import DuplexRpc.Proofs.Client.Reopening

/-!
Reconnect loops. The mark lets one task at a time into the loop of attempts. A pass that finds the
mark set starts nobody and relies on its owner, who looks at the status again after clearing it: so
between turns a client that wants its link back has exactly one reconnect task.
-/
namespace DuplexRpc

/-- The task is inside the loop of attempts. -/
def Task.isInLoop : Task → Bool
  | reconnect _ (.opening _) => true
  | reconnect _ p => p.isLooping
  | _ => false

/-- The task takes a lost link down. -/
def Task.isPass : Task → Bool
  | receive _ (.disconnecting _) => true
  | _ => false

namespace Client

variable {config : Config} {c c' : Client} {t u : TaskId} {turn : Option TaskId} {x : Task}
  {m : Move}

/-- The move breaks no reconnect task off. -/
def SparesLoops (c : Client) (m : Move) : Prop := ∀ c', c.apply m = some c' → ¬c.BreaksOff c'

theorem Guided.unbroken (run : Guided config SparesLoops turn c) : Unbroken config c := by
  induction run with
  | fresh => exact .fresh
  | @move turn c c' m before permitted keeps h ih => exact .move m ih h (permitted c' h)

theorem Cooperative.sparesLoops (run : Cooperative config turn c)
    (hdelay : config.backoff.Reckonable) : Guided config SparesLoops turn c := by
  induction run with
  | fresh => exact .fresh
  | @move turn c c' m before keeps h ih =>
    have hspares : c.SparesLoops m := by
      intro c'' h''
      cases h.symm.trans h''
      exact before.reachable.not_breaksOff hdelay h
    exact .move m ih hspares keeps h

theorem ownsMark_of_isInLoop (h : x.isInLoop = true) : x.ownsMark = true := by
  cases x with
  | reconnect epoch p => cases p <;> first | rfl | cases h
  | _ => cases h

/-- A reconnect task that rests and is not over is in its loop. -/
theorem isInLoop_of_rests {epoch : Nat} {p : ReconnectPhase}
    (h : rests (.reconnect epoch p) = true) (hp : p ≠ .done) :
    (Task.reconnect epoch p).isInLoop = true := by
  cases p with
  | done => exact absurd rfl hp
  | _ => first | rfl | cases h

theorem ClosePhase.isUnpublished_of_waits {p : ClosePhase}
    (h : ClosePhase.waits false (fun _ => false) p = true) : p.isUnpublished = false := by
  cases p <;> first | rfl | cases h

/-- At rest only passes and reconnect tasks keep watch: a connect or close has published before its
first wait whatever it has done to the link. -/
theorem eq_reconnect_of_isVigilant (h : x.isVigilant = true) (hrest : rests x = true)
    (hpass : x.isPass = false) : ∃ epoch p, x = .reconnect epoch p ∧ p ≠ .done := by
  cases x with
  | connect p =>
    cases p with
    | closing url p | failing p failure =>
      cases (ClosePhase.isUnpublished_of_waits hrest).symm.trans h
    | publish epoch => cases hrest
    | _ => cases h
  | close p =>
    cases p with
    | none => cases h
    | some p =>
      have hpublished : p.isUnpublished = false := by
        cases p with
        | mark => rfl
        | _ => exact ClosePhase.isUnpublished_of_waits hrest
      cases hpublished.symm.trans h
  | receive g p => cases p <;> first | cases h | cases hpass
  | reconnect epoch p => exact ⟨epoch, p, rfl, by simpa [Task.isVigilant] using h⟩
  | _ => cases h

/-- One reconnect loop, and none missed: at most one task is in the loop; and between turns, once no
pass is in progress, a client that wants its link back has its mark set and exactly one reconnect
task that is not over, whatever connects and closes are in progress. -/
theorem one_loop_none_missed (run : Guided config SparesLoops turn c) (hkept : c.IsKept) :
    (∀ (t u : TaskId) (x y : Task), c.tasks[t]? = some x → c.tasks[u]? = some y →
      x.isInLoop = true → y.isInLoop = true → t = u) ∧
    (turn.all c.waits = true → c.shared.status = .reconnecting → c.shared.closed = false →
      (∀ (t : TaskId) (x : Task), c.tasks[t]? = some x → x.isPass = false) →
      c.shared.reconnecting = true ∧
        ∃! t : TaskId, ∃ epoch p, c.tasks[t]? = some (.reconnect epoch p) ∧ p ≠ .done) := by
  have hmarked := run.cooperative.reachable.marked hkept
  have hone (t u : TaskId) (x y : Task) (hx : c.tasks[t]? = some x) (hy : c.tasks[u]? = some y)
      (hxloop : x.isInLoop = true) (hyloop : y.isInLoop = true) : t = u :=
    hmarked.unique t u x y hx hy (ownsMark_of_isInLoop hxloop) (ownsMark_of_isInLoop hyloop)
  refine ⟨hone, fun hwaits hstatus hclosed hpass => ?_⟩
  have hloop (t : TaskId) (epoch : Nat) (p : ReconnectPhase)
      (ht : c.tasks[t]? = some (.reconnect epoch p)) (hp : p ≠ .done) :
      (Task.reconnect epoch p).isInLoop = true :=
    isInLoop_of_rests (run.cooperative.all_rest hwaits ht) hp
  obtain ⟨t, x, ht, hvigilant⟩ := run.unbroken.exists_vigilant hkept ⟨hstatus, hclosed⟩
  obtain ⟨epoch, p, rfl, hp⟩ := eq_reconnect_of_isVigilant hvigilant
    (run.cooperative.all_rest hwaits ht) (hpass t x ht)
  constructor
  · exact hmarked.marked t _ ht (ownsMark_of_isInLoop (hloop t epoch p ht hp))
  · refine ⟨t, ⟨epoch, p, ht, hp⟩, ?_⟩
    rintro u ⟨epoch', p', hu, hp'⟩
    exact hone u t _ _ hu ht (hloop u epoch' p' hu hp') (hloop t epoch p ht hp)

/-- While the reconnect task of a lost link sleeps, a connect opens a new link, and this one is lost
too. The pass finds the mark set; the task sees that its epoch is over, clears the mark and starts
another one. -/
def succeeding : List Move :=
  reopening ++ connecting 4 ++ .step 5 (.frame .ended) :: List.replicate 9 (.step 5 .run) ++
    .step 3 .cancelled :: List.replicate 6 (.step 3 .run) ++
    [.step 7 .run, .step 7 .run, .step 7 (.drawn .zero)]

theorem one_loop_none_missed_succeeding : ∃ c, Guided .standard SparesLoops (some 7) c ∧
    c.IsKept ∧ c.waits 7 = true ∧ c.shared.status = .reconnecting ∧ c.shared.closed = false ∧
    c.tasks.length = 8 ∧ c.shared.reconnecting = true ∧
      ∃! t : TaskId, ∃ epoch p, c.tasks[t]? = some (.reconnect epoch p) ∧ p ≠ .done := by
  have hrun : ((fresh .standard).run none succeeding).any (fun r => r.1 = some 7 ∧
      (r.2.tasks.all fun x => !x.isDiscard) = true ∧ (r.2.tasks.all fun x => !x.isPass) = true ∧
      r.2.waits 7 = true ∧ r.2.shared.status = .reconnecting ∧ r.2.shared.closed = false ∧
      r.2.tasks.length = 8) = true := by
    decide +kernel
  obtain ⟨⟨turn, c⟩, hc, hfacts⟩ := Option.any_eq_true _ _ |>.1 hrun
  obtain ⟨rfl, hall, hpasses, hwaits, hstatus, hclosed, hlength⟩ := of_decide_eq_true hfacts
  have hkept := isKept_of_all hall
  have hpass (t : TaskId) (x : Task) (hx : c.tasks[t]? = some x) : x.isPass = false := by
    simpa using forall_task_of_all hpasses t x hx
  have run : Guided .standard SparesLoops (some 7) c :=
    Cooperative.sparesLoops (.continues .fresh (continues_run hc)) standard_reckonable
  exact ⟨c, run, hkept, hwaits, hstatus, hclosed, hlength,
    (one_loop_none_missed run hkept).2 hwaits hstatus hclosed hpass⟩

end Client
end DuplexRpc
