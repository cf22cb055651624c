import DuplexRpc.Proofs.Client.Runs

/-!
Epochs. No connect has read an epoch that is still to come. A link is installed only under the
current epoch, and between that section and the end of the opening the task does not wait; so a
connect whose epoch is over has installed nothing, and can only fail.
-/
namespace DuplexRpc

/-- The opening has put its generation in place and has yet to report it. -/
def OpenPhase.hasInstalled : OpenPhase → Bool
  | failRetired | resetAttempts | publish => true
  | _ => false

/-- The epoch under which a connect opens its link. -/
def ConnectPhase.epoch? : ConnectPhase → Option Nat
  | resetAttempts epoch | unclose epoch | publish epoch | opening epoch _ => some epoch
  | _ => none

namespace Client

variable {config : Config} {c c' : Client} {t a : TaskId} {choice : Choice} {e : Nat}
  {p p' : OpenPhase} {next : Next OpenPhase (Except Failure Unit)}

theorem epoch_eq_of_not_isStale (h : ¬c.isStale e = true) : e = c.shared.epoch := by
  simp only [isStale, Bool.or_eq_true, bne_iff_ne, ne_eq, not_or, Decidable.not_not] at h
  exact h.2.symm

theorem openStep_epoch (h : c.openStep t e choice p = some (c', next)) :
    c'.shared.epoch = c.shared.epoch := by
  revert h
  fun_cases openStep c t e choice p
  all_goals
    intro h
    cases h
  -- the section that installs the link
  case case23 => exact epoch_install c e
  all_goals rfl

theorem openStep_hasInstalled (h : c.openStep t e choice p = some (c', .phase p'))
    (hp' : p'.hasInstalled = true) : p.hasInstalled = true ∨ e = c.shared.epoch := by
  revert h
  fun_cases openStep c t e choice p
  all_goals intro h
  case case23 hstale next => exact .inr (epoch_eq_of_not_isStale hstale)
  all_goals cases h
  all_goals first
    | exact .inl rfl
    | cases hp'

/-- Under an epoch that is over, an opening changes no link, no status and no call, and can only
fail. -/
theorem openStep_stale (h : c.openStep t e choice p = some (c', next)) (he : e ≠ c.shared.epoch)
    (hp : p.hasInstalled = false) :
    c'.shared.link = c.shared.link ∧ c'.shared.status = c.shared.status ∧
      c'.shared.pending = c.shared.pending ∧
      ((∃ p', next = .phase p' ∧ p'.hasInstalled = false) ∨
        ∃ failure, next = .over (.error failure)) := by
  revert h
  fun_cases openStep c t e choice p
  all_goals
    intro h
    cases h
  case case23 hstale next => exact absurd (epoch_eq_of_not_isStale hstale) he
  all_goals first
    | exact ⟨rfl, rfl, rfl, .inl ⟨_, rfl, rfl⟩⟩
    | exact ⟨rfl, rfl, rfl, .inr ⟨_, rfl⟩⟩
    | cases hp

theorem connectStep_epoch {p p' : ConnectPhase} (h : c.connectStep t choice p = some (c', p'))
    (he : p'.epoch? = some e) : p.epoch? = some e ∨ e = c'.shared.epoch := by
  revert h
  fun_cases connectStep c t choice p
  all_goals intro h
  -- the two closes have no epoch to go on with
  case case4 | case16 =>
    obtain ⟨⟨c₁, next⟩, -, heq⟩ := Option.map_eq_some_iff.1 h
    cases next <;> cases heq <;> cases he
  case case15 =>
    obtain ⟨⟨c₁, next⟩, -, heq⟩ := Option.map_eq_some_iff.1 h
    rcases next with _ | _ | _ <;> cases heq <;> first | exact .inl he | cases he
  all_goals cases h
  all_goals cases he
  all_goals first
    | exact .inl rfl
    | exact .inr rfl

theorem opening_of_connectStep {q : ConnectPhase}
    (h : c.connectStep t choice q = some (c', .opening e p)) :
    p = .checkClosed ∨
      ∃ q', q = .opening e q' ∧ c.openStep t e choice q' = some (c', .phase p) := by
  revert h
  fun_cases connectStep c t choice q
  all_goals intro h
  case case4 | case16 =>
    obtain ⟨⟨c₁, next⟩, -, heq⟩ := Option.map_eq_some_iff.1 h
    cases next <;> cases heq
  case case15 =>
    obtain ⟨⟨c₁, next⟩, hopen, heq⟩ := Option.map_eq_some_iff.1 h
    rcases next with _ | _ | _ <;> cases heq
    exact .inr ⟨_, rfl, hopen⟩
  all_goals cases h
  exact .inl rfl

theorem Reachable.epoch_le (run : Reachable config c) {p : ConnectPhase}
    (ha : c.tasks[a]? = some (.connect p)) (he : p.epoch? = some e) : e ≤ c.shared.epoch := by
  induction run generalizing p with
  | fresh => cases ha
  | move m before h ih =>
    have hages := apply_ages h
    rcases connect_before_apply h ha with ⟨text, rfl⟩ | ⟨-, ha⟩ | ⟨choice, c₁, q, -, ha, hstep, hc⟩
    · cases he
    · exact Nat.le_trans (ih ha he) hages.epoch
    · rcases connectStep_epoch hstep he with hq | rfl
      · exact Nat.le_trans (ih ha hq) hages.epoch
      · exact Nat.le_of_eq (by rw [hc])

theorem waits_connect {q : ConnectPhase} (ha : c.tasks[a]? = some (.connect q)) :
    c.waits a = ConnectPhase.waits (c.holds a) c.isDone q := by
  simp [waits, ha]

theorem waits_of_keepsTurn {m : Move} (keeps : c.keepsTurn (some a) m = true)
    (hm : ∀ choice, m ≠ .step a choice) : c.waits a = true := by
  cases m with
  | step t choice =>
    have hne : a ≠ t := fun heq => hm choice (heq ▸ rfl)
    simpa [keepsTurn, hne] using keeps
  | _ => simpa [keepsTurn] using keeps

/-- A connect that has lost the turn stands at a wait, unless it has yet to begin. -/
theorem Cooperative.paused {turn : Option TaskId} (run : Cooperative config turn c)
    {q : ConnectPhase} (ha : c.tasks[a]? = some (.connect q)) (hturn : turn ≠ some a) :
    (∃ target, q = .start target) ∨ ∃ held isDone, ConnectPhase.waits held isDone q = true := by
  induction run generalizing q with
  | fresh => cases ha
  | @move turn c c' m before keeps h ih =>
    rcases connect_before_apply h ha with hnew | ⟨hm, ha⟩ | ⟨choice, c₁, q, rfl, -, -, -⟩
    · exact .inl hnew
    · by_cases hbefore : turn = some a
      · subst hbefore
        exact .inr ⟨_, _, waits_connect ha ▸ waits_of_keepsTurn keeps hm⟩
      · exact ih ha hbefore
    · exact absurd rfl hturn

/-- A connect that has installed its link keeps the turn, and its epoch is the current one. -/
theorem Cooperative.installs_in_turn {turn : Option TaskId} (run : Cooperative config turn c)
    (ha : c.tasks[a]? = some (.connect (.opening e p))) (hp : p.hasInstalled = true) :
    turn = some a ∧ e = c.shared.epoch := by
  have hstill {held : Bool} {isDone : TaskId → Bool} {p : OpenPhase} (hp : p.hasInstalled = true) :
      ConnectPhase.waits held isDone (.opening e p) = false := by
    cases p with
    | failRetired | resetAttempts | publish => rfl
    | _ => cases hp
  induction run generalizing p with
  | fresh => cases ha
  | @move turn c c' m before keeps h ih =>
    rcases connect_before_apply h ha with
      ⟨text, hq⟩ | ⟨hm, ha⟩ | ⟨choice, c₁, q, rfl, ha, hstep, hc⟩
    · cases hq
    · obtain ⟨rfl, -⟩ := ih ha hp
      have hwaits := waits_of_keepsTurn keeps hm
      rw [waits_connect ha, hstill hp] at hwaits
      cases hwaits
    · refine ⟨rfl, ?_⟩
      rcases opening_of_connectStep hstep with rfl | ⟨q, rfl, hopen⟩
      · cases hp
      · rw [hc, openStep_epoch hopen]
        rcases openStep_hasInstalled hopen hp with hq | he
        · exact (ih ha hq).2
        · exact he

end Client
end DuplexRpc
