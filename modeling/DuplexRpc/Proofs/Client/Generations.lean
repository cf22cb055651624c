import DuplexRpc.Proofs.Client.AfterClose

/-!
Generations. Each is installed once, after all earlier ones, and taken out of the link at most once:
by a close, by the pass of its own receiver, or by the opening that replaces it. A pass that comes
later finds nothing to do.
-/
namespace DuplexRpc

/-- Who takes a generation out of the link. -/
inductive Retirer where
  | closing
  | passing (generation : Generation)
  | opening
  deriving DecidableEq, Repr

/-- Whom the task is in the section on the link that it comes to next. -/
def Role.retirer? : Role → Option Retirer
  | closing .detach => some .closing
  | passing g .detach => some (.passing g)
  | opening _ .lock => some .opening
  | _ => none

namespace Lifecycle

variable {l l' : Lifecycle} {r r' : Role} {g : Generation}

/-- The generation that has been installed between two states, if any. -/
def installs (l l' : Lifecycle) : List Generation :=
  if l'.installed = l.installed then [] else l'.installed.toList

/-- The generation that has been taken out of the link between two states, if any. -/
def retires (l l' : Lifecycle) : List Generation :=
  if l'.installed = l.installed then [] else l.installed.toList

theorem installs_append (l l' : Lifecycle) :
    l.installed.toList ++ installs l l' = retires l l' ++ l'.installed.toList := by
  unfold installs retires
  split
  next h => rw [h, List.append_nil, List.nil_append]
  next => rfl

theorem installs_eq_nil (h : l'.installed = l.installed) : installs l l' = [] := if_pos h

theorem retires_eq_nil (h : l'.installed = l.installed) : retires l l' = [] := if_pos h

/-- What is installed has a new number. -/
theorem Step.installs_new (h : l.Step r r' l') :
    l.generation ≤ l'.generation ∧ ∀ g ∈ installs l l', l.generation < g ∧ g = l'.generation := by
  have hsame {l'} (hl : l'.installed = l.installed) (hle : l.generation ≤ l'.generation) :
      l.generation ≤ l'.generation ∧ ∀ g ∈ installs l l', l.generation < g ∧ g = l'.generation :=
    ⟨hle, by rw [installs_eq_nil hl]; nofun⟩
  have hnone {l' : Lifecycle} (hl : l'.installed = none) : ∀ g, g ∉ installs l l' := by
    unfold installs
    split
    · nofun
    · rw [hl]
      nofun
  cases h with
  | detach d => exact ⟨Nat.le_succ _, fun g hg => absurd hg (hnone rfl g)⟩
  | lose old hold => exact ⟨Nat.le_refl _, fun g hg => absurd hg (hnone rfl g)⟩
  | install p hclosed =>
    refine ⟨Nat.le_succ _, fun g hg => ?_⟩
    unfold installs at hg
    split at hg
    · cases hg
    · obtain rfl := List.mem_singleton.1 hg
      exact ⟨Nat.lt_succ_self _, rfl⟩
  | _ => exact hsame rfl (Nat.le_refl _)

/-- What is taken out is taken out by a close, its own pass or an opening. -/
theorem Step.retires_by (h : l.Step r r' l')
    (hl : ∀ g, l.installed = some g → g = l.generation) (hg : g ∈ retires l l') :
    r.retirer? = some .closing ∨ r.retirer? = some (.passing g) ∨ r.retirer? = some .opening := by
  have hsame {l'} (heq : l'.installed = l.installed) (hg : g ∈ retires l l') :
      r.retirer? = some .closing ∨ r.retirer? = some (.passing g) ∨
        r.retirer? = some .opening := by
    rw [retires_eq_nil heq] at hg
    cases hg
  cases h with
  | detach d => exact .inl rfl
  | install p hclosed => exact .inr (.inr rfl)
  | lose old hold =>
    have hmem : g ∈ l.installed.toList := by
      unfold retires at hg
      split at hg
      · cases hg
      · exact hg
    obtain rfl := hl g (Option.mem_toList.1 hmem)
    exact .inr (.inl rfl)
  | _ => exact hsame rfl hg

end Lifecycle

namespace Client

variable {config : Config} {c c' c₁ : Client} {t : TaskId} {choice : Choice} {m : Move}
  {ms : List Move} {g : Generation}

/-- The part that a move plays in a section on the link. -/
def retirer? (c : Client) : Move → Option Retirer
  | .step t _ => (c.tasks[t]?).bind (·.role.retirer?)
  | _ => none

/-- The generations that a run installs, in their order. -/
def installs : Client → List Move → List Generation :=
  noted fun c _ c' => c.shared.lifecycle.installs c'.shared.lifecycle

/-- The generations that a run takes out of the link, in their order, each with who does so. -/
def retirements : Client → List Move → List (Generation × Option Retirer) :=
  noted fun c m c' => (c.shared.lifecycle.retires c'.shared.lifecycle).map (·, c.retirer? m)

/-- What a run has installed by now has been taken out or is still installed. -/
structure Turnover (c₀ : Client) (ms : List Move) (c : Client) : Prop where
  installs_le : ∀ g ∈ c₀.installs ms, g ≤ c.shared.link.generation
  increasing : (c₀.installs ms).Pairwise (· < ·)
  retired : (c₀.retirements ms).map Prod.fst ++ c.shared.link.installed.toList = c₀.installs ms
  retirers : ∀ r ∈ c₀.retirements ms,
    r.2 = some .closing ∨ r.2 = some (.passing r.1) ∨ r.2 = some .opening

/-- A move of the user plays no part. -/
theorem exists_step_of_apply (h : c.apply m = some c') : ∃ r r',
    c.shared.lifecycle.Step r r' c'.shared.lifecycle ∧ r.retirer? = c.retirer? m := by
  obtain ⟨hm, hlife⟩ | ⟨t, choice, x, c₁, x', rfl, hx, hstep, rfl⟩ := lifecycle_of_apply h
  · refine ⟨.other, .other, .same hlife nofun nofun, ?_⟩
    cases m with
    | step t choice => exact absurd rfl (hm t choice)
    | _ => rfl
  · exact ⟨x.role, x'.role, hstep.lifecycle, by simp only [retirer?, hx, Option.bind_some]⟩

theorem Turnover.concat (h : Turnover (fresh config) ms c)
    (hms : (fresh config).follow ms = some c) (hm : c.apply m = some c') :
    Turnover (fresh config) (ms ++ [m]) c' := by
  obtain ⟨r, r', hstep, hretirer⟩ := exists_step_of_apply hm
  have hinstalls : (fresh config).installs (ms ++ [m]) =
      (fresh config).installs ms ++ c.shared.lifecycle.installs c'.shared.lifecycle :=
    noted_concat hms hm
  have hretirements : (fresh config).retirements (ms ++ [m]) = (fresh config).retirements ms ++
      (c.shared.lifecycle.retires c'.shared.lifecycle).map (·, c.retirer? m) :=
    noted_concat hms hm
  obtain ⟨hle, hnew⟩ := hstep.installs_new
  refine ⟨fun g hg => ?_, ?_, ?_, fun x hx => ?_⟩
  · obtain hg | hg := List.mem_append.1 (hinstalls ▸ hg)
    · exact Nat.le_trans (h.installs_le g hg) hle
    · exact Nat.le_of_eq (hnew g hg).2
  · rw [hinstalls, List.pairwise_append]
    refine ⟨h.increasing, ?_, fun g hg g' hg' =>
      Nat.lt_of_le_of_lt (h.installs_le g hg) (hnew g' hg').1⟩
    unfold Lifecycle.installs
    split
    · exact .nil
    · cases c'.shared.lifecycle.installed with
      | none => exact .nil
      | some g => exact List.pairwise_singleton ..
  · calc ((fresh config).retirements (ms ++ [m])).map Prod.fst ++ c'.shared.link.installed.toList
        = ((fresh config).retirements ms).map Prod.fst ++
            (c.shared.lifecycle.retires c'.shared.lifecycle ++
              c'.shared.lifecycle.installed.toList) := by
          simp only [hretirements, List.map_append, List.map_map, Function.comp_def, List.map_id',
            List.append_assoc]
          rfl
      _ = ((fresh config).retirements ms).map Prod.fst ++ (c.shared.link.installed.toList ++
            c.shared.lifecycle.installs c'.shared.lifecycle) := by
          rw [← Lifecycle.installs_append]
          rfl
      _ = (fresh config).installs (ms ++ [m]) := by
          rw [← List.append_assoc, h.retired, hinstalls]
  · obtain hx | hx := List.mem_append.1 (hretirements ▸ hx)
    · exact h.retirers x hx
    · obtain ⟨g, hg, rfl⟩ := List.mem_map.1 hx
      exact hretirer ▸ hstep.retires_by
        (fun g => (reachable_iff_follow.2 ⟨ms, hms⟩).installed_eq) hg

theorem turnover_of_follow (h : (fresh config).follow ms = some c) :
    Turnover (fresh config) ms c := by
  refine follow_induct (P := Turnover (fresh config)) h ?_
    fun ms m c₁ c₂ hms h hm => h.concat hms hm
  exact ⟨nofun, .nil, rfl, nofun⟩

/-- A pass that finds its generation taken out is over. -/
theorem step_retired (ht : c.tasks[t]? = some (.receive g (.disconnecting .detach)))
    (hretired : ∀ old, c.shared.link.installed = some old → c.shared.link.generation ≠ g) :
    c.step t choice = some c' ↔
      choice = .run ∧ c' = ⟨c.shared, c.tasks.set t (.receive g .done)⟩ := by
  have hpass : c.disconnectStep t g .run .detach = some (c, .over ()) := by
    simp only [disconnectStep]
    split
    next old hold => rw [if_pos (hretired old hold)]
    next => rfl
  cases choice with
  | run => simp [step, ht, taskStep, receiveStep, hpass, eq_comm]
  | _ => simp [step, ht, taskStep, receiveStep, disconnectStep]

/-- In any interleaving: generations are installed in increasing order; each is taken out of the
link at most once, and those that have been taken out come before the one that is still installed;
who takes one out is a close, the pass of its own receiver or the opening that replaces it; and a
pass that comes to a generation which has been taken out has one step left, which changes nothing
but that the receiver is over. -/
theorem generations_retire_once (h : (fresh config).follow ms = some c) :
    ((fresh config).installs ms).Pairwise (· < ·) ∧
    (((fresh config).retirements ms).map Prod.fst).Nodup ∧
    ((fresh config).retirements ms).map Prod.fst ++ c.shared.link.installed.toList =
      (fresh config).installs ms ∧
    (∀ r ∈ (fresh config).retirements ms,
      r.2 = some .closing ∨ r.2 = some (.passing r.1) ∨ r.2 = some .opening) ∧
    ∀ (t : TaskId) g, c.tasks[t]? = some (.receive g (.disconnecting .detach)) →
      g ∈ ((fresh config).retirements ms).map Prod.fst → ∀ choice c',
      c.step t choice = some c' ↔
        choice = .run ∧ c' = ⟨c.shared, c.tasks.set t (.receive g .done)⟩ := by
  have hturnover := turnover_of_follow h
  have hall := hturnover.retired ▸ hturnover.increasing
  obtain ⟨hretired, -, hlast⟩ := List.pairwise_append.1 hall
  refine ⟨hturnover.increasing, hretired.imp Nat.ne_of_lt, hturnover.retired, hturnover.retirers,
    fun t g ht hg choice c' => step_retired ht fun old hold heq => ?_⟩
  have hnumber := (reachable_iff_follow.2 ⟨ms, h⟩).installed_eq hold
  exact Nat.ne_of_lt (hlast g hg old (Option.mem_toList.2 hold)) (heq.symm.trans hnumber.symm)

theorem eq_receive_of_role {x : Task} {p : DisconnectPhase} (h : x.role = .passing g p) :
    x = .receive g (.disconnecting p) := by
  cases x with
  | receive g' q =>
    cases q <;> cases h
    rfl
  | connect q => cases q <;> cases h
  | close q => cases q <;> cases h
  | reconnect epoch q => cases q <;> cases h
  | discard q => cases q <;> cases h
  | _ => cases h

/-- The second link of a client is lost, but a close comes first. -/
def overtakenPass : List Move :=
  reinstalling ++ .step 4 (.frame .ended) :: .start .close :: List.replicate 3 (.step 6 .run)

theorem generations_retire_once_overtaken : ∃ c, (fresh .standard).follow overtakenPass = some c ∧
    (fresh .standard).installs overtakenPass = [2, 3] ∧
    (fresh .standard).retirements overtakenPass =
      [(2, some (.passing 2)), (3, some .closing)] ∧
    c.tasks[4]? = some (.receive 3 (.disconnecting .detach)) ∧
    ∀ choice c', c.step 4 choice = some c' ↔
      choice = .run ∧ c' = ⟨c.shared, c.tasks.set 4 (.receive 3 .done)⟩ := by
  have hrun : ((fresh .standard).follow overtakenPass).any (fun c =>
      (c.tasks[4]?).any fun x => x.role = .passing 3 .detach) = true := by
    decide +kernel
  obtain ⟨c, hc, hrun⟩ := Option.any_eq_true _ _ |>.1 hrun
  obtain ⟨x, hx, hrole⟩ := Option.any_eq_true _ _ |>.1 hrun
  cases eq_receive_of_role (of_decide_eq_true hrole)
  have hretirements : (fresh .standard).retirements overtakenPass =
      [(2, some (.passing 2)), (3, some .closing)] := by
    decide +kernel
  exact ⟨c, hc, by decide +kernel, hretirements, hx,
    (generations_retire_once hc).2.2.2.2 4 3 hx (by rw [hretirements]; simp)⟩

end Client
end DuplexRpc
