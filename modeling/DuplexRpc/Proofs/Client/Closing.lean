import DuplexRpc.Proofs.Client.Evolution

/-!
The course of a close. First it takes the link out, in one turn; then it waits, for the outbound
slot, for the peer and for the tasks of the link, and touches no link any more; at last it fails
what waits for an answer.
-/
namespace DuplexRpc

/-- The link, the status and the waiting calls are as they were. -/
structure Shared.Keeps (s s' : Shared) : Prop where
  link : s'.link = s.link
  status : s'.status = s.status
  pending : s'.pending = s.pending

namespace ClosePhase

/-- The close has not come to the section that takes the link out. -/
def keepsLink : ClosePhase → Bool
  | mark | bump | detach => true
  | _ => false

/-- The close has told the tasks of the link to end. -/
def isLate : ClosePhase → Bool
  | request _ | lock _ | shaking _ _ | joining _ | fail => true
  | _ => false

/-- What a close that began in one state has done so far. -/
def Toll (s s' : Shared) : ClosePhase → Prop
  | mark | bump | detach => s.Keeps s'
  | publish _ => s'.link.installed = none
  | _ => s'.link.installed = none ∧ s'.status = .closed

end ClosePhase

namespace Client

variable {c c' : Client} {t : TaskId} {choice : Choice} {s : Shared} {q q' : ClosePhase}
  {next : Next ClosePhase Unit}

theorem keepsLink_of_isLate (hq : q.isLate = true) : q.keepsLink = false := by
  cases q with
  | mark | bump | detach => cases hq
  | _ => rfl

theorem closeStep_of_not_late (h : c.closeStep t choice q = some (c', next))
    (hq : q.isLate = false) : ∃ q', c.beginClose q = some (c', q') ∧ next = .phase q' := by
  revert h
  fun_cases closeStep c t choice q
  all_goals intro h
  case case17 =>
    obtain ⟨⟨c₁, q'⟩, hbegin, heq⟩ := Option.map_eq_some_iff.1 h
    cases heq
    exact ⟨q', hbegin, rfl⟩
  case case18 => cases h
  all_goals cases hq

/-- Once it has told the tasks to end, a close leaves the link and the status alone; at its end it
fails what waits. -/
theorem closeStep_late (h : c.closeStep t choice q = some (c', next)) (hq : q.isLate = true) :
    c'.shared.link = c.shared.link ∧ c'.shared.status = c.shared.status ∧
      ((∃ q', next = .phase q' ∧ q'.isLate = true ∧ c'.shared.pending = c.shared.pending) ∨
        (q = .fail ∧ next = .over () ∧ c' = c.update Shared.failAll)) := by
  revert h
  fun_cases closeStep c t choice q
  all_goals intro h
  -- with the slot in hand the close goes on to the peer, or to the tasks if there is no sink
  case case4 next =>
    have hlate : next.isLate = true := by
      unfold next
      cases c.shared.outbound.sink <;> rfl
    obtain ⟨rfl, rfl⟩ := Prod.mk.inj (Option.some.inj h)
    exact ⟨rfl, rfl, .inl ⟨next, rfl, hlate, rfl⟩⟩
  case case17 =>
    obtain ⟨⟨c₁, q'⟩, hbegin, -⟩ := Option.map_eq_some_iff.1 h
    cases q <;> first | cases hq; done | cases hbegin
  all_goals cases h
  case case15 => exact ⟨rfl, rfl, .inr ⟨rfl, rfl, rfl⟩⟩
  all_goals exact ⟨rfl, rfl, .inl ⟨_, rfl, rfl, rfl⟩⟩

theorem beginClose_toll (h : c.beginClose q = some (c', q')) (hq : q.Toll s c.shared) :
    q'.Toll s c'.shared := by
  cases q with
  | mark | bump =>
    cases h
    exact ⟨hq.link, hq.status, hq.pending⟩
  | detach =>
    cases h
    rfl
  | publish d =>
    cases h
    exact ⟨hq, rfl⟩
  | signal d =>
    cases h
    unfold signalDetached
    cases hd : d.installed <;> exact hq
  | _ => cases h

theorem toll_of_isLate (hq : q.isLate = true) :
    q.Toll s c.shared ↔ c.shared.link.installed = none ∧ c.shared.status = .closed := by
  cases q with
  | mark | bump | detach | publish | signal => cases hq
  | _ => exact Iff.rfl

theorem closeStep_toll (h : c.closeStep t choice q = some (c', next)) (hq : q.Toll s c.shared) :
    (∃ q', next = .phase q' ∧ q'.Toll s c'.shared) ∨
      (next = .over () ∧ c'.shared.link.installed = none ∧ c'.shared.status = .closed) := by
  cases hlate : q.isLate with
  | false =>
    obtain ⟨q', hbegin, rfl⟩ := closeStep_of_not_late h hlate
    exact .inl ⟨q', rfl, beginClose_toll hbegin hq⟩
  | true =>
    obtain ⟨hlink, hstatus, hend⟩ := closeStep_late h hlate
    rw [toll_of_isLate hlate, ← hlink, ← hstatus] at hq
    rcases hend with ⟨q', rfl, hq', -⟩ | ⟨-, rfl, -⟩
    · exact .inl ⟨q', rfl, (toll_of_isLate hq').2 hq⟩
    · exact .inr ⟨rfl, hq⟩

/-- No step of a close puts a generation back that has been taken out. -/
theorem closeStep_fate {g : Generation} (h : c.closeStep t choice q = some (c', next))
    (hle : g ≤ c.shared.link.generation)
    (hq : q.keepsLink = false → c.shared.link.installed ≠ some g) :
    (∃ q', next = .phase q' ∧ (q'.keepsLink = false → c'.shared.link.installed ≠ some g)) ∨
      (next = .over () ∧ c'.shared.link.installed ≠ some g ∧ c' = c.update Shared.failAll) := by
  have hages := (closeStep_evolves h).ages
  cases hlate : q.isLate with
  | false =>
    obtain ⟨q', hbegin, rfl⟩ := closeStep_of_not_late h hlate
    refine .inl ⟨q', rfl, fun hq' => ?_⟩
    cases q with
    | mark | bump =>
      cases hbegin
      cases hq'
    | detach =>
      cases hbegin
      exact nofun
    | publish d | signal d => exact hages.installed_ne hle (hq rfl)
    | _ => cases hlate
  | true =>
    have hne := hages.installed_ne hle (hq (keepsLink_of_isLate hlate))
    obtain ⟨-, -, hend⟩ := closeStep_late h hlate
    rcases hend with ⟨q', rfl, -, -⟩ | ⟨-, rfl, rfl⟩
    · exact .inl ⟨q', rfl, fun _ => hne⟩
    · exact .inr ⟨rfl, hne, rfl⟩

theorem waits_of_keepsLink (hq : q.keepsLink = true) (held : Bool) (isDone : TaskId → Bool) :
    ClosePhase.waits held isDone q = false := by
  cases q with
  | mark | bump | detach => rfl
  | _ => cases hq

end Client
end DuplexRpc
