import DuplexRpc.Proofs.Client.Deeds

/-!
Who is let in. A call looks at its method, at its signal and at the status of the client before it
takes an id. One that is turned away there has done nothing and does nothing later.
-/
namespace DuplexRpc.Client

variable {config : Config} {c c' c₁ : Client} {t : TaskId} {choice : Choice} {m : Move}
  {ms : List Move} {task task' : Task}

theorem CallStep.shared_of_isOutside {spec : CallSpec} {p : CallPhase}
    {next : Next CallPhase (Option Outcome)} (h : CallStep c t spec choice p c₁ next)
    (hp : p.isOutside = true) : c₁.shared = c.shared := by
  cases h with
  | look | turnedAway | enter => rfl
  | _ => cases hp

theorem step_call {spec : CallSpec} {p : CallPhase} (ht : c.tasks[t]? = some (.call spec p)) :
    c.step t choice = some c' ↔ ∃ c₁ next, c.callStep t spec choice p = some (c₁, next) ∧
      c' = ⟨c₁.shared, c₁.tasks.set t (.call spec next.after)⟩ := by
  have htask : c.taskStep t choice (.call spec p) =
      (c.callStep t spec choice p).map fun r => (r.1, .call spec r.2.after) := by
    simp only [taskStep]
    congr 1
    funext r
    obtain ⟨c₁, next⟩ := r
    cases next <;> rfl
  constructor
  · intro h
    obtain ⟨x, c₁, x', hx, hstep, rfl⟩ := step_eq_some_iff.1 h
    cases ht.symm.trans hx
    obtain ⟨⟨c₂, next⟩, hcall, heq⟩ := Option.map_eq_some_iff.1 (htask ▸ hstep)
    cases heq
    exact ⟨c₂, next, hcall, rfl⟩
  · rintro ⟨c₁, next, hcall, rfl⟩
    exact step_eq_some_iff.2 ⟨_, c₁, _, ht, by rw [htask, hcall]; rfl, rfl⟩

/-- A call that stays outside and leaves all as it is does nothing. -/
theorem deeds_of_still {spec : CallSpec} {p : CallPhase} (ht : c'.tasks[t]? = some (.call spec p))
    (hp : p.stand = .out) (hshared : c'.shared = c.shared) : deeds t c m c' = [] := by
  have hstand : c'.stand t = .out := (stand_of_getElem? ht).trans hp
  unfold deeds
  split
  · split
    · rw [ht, hstand, shown_nothing (Stand.taken_out _) (hshared ▸ List.Subset.refl _)
        (congrArg Shared.sent hshared)]
      rfl
    · rfl
  · rfl

/-- A call that cannot get past some phases, in none of which it has an id, does nothing. -/
theorem deeds_of_confined {spec : CallSpec} {p : CallPhase} {S : CallPhase → Prop}
    {Q : Client → Prop} (hout : ∀ p, S p → p.stand = .out)
    (hstep : ∀ c choice p c₁ next, Q c → S p → c.callStep t spec choice p = some (c₁, next) →
      c₁.shared = c.shared ∧ S next.after)
    (hQ : ∀ ms₁ c₁, ms₁ <+: ms → c.follow ms₁ = some c₁ → Q c₁)
    (ht : c.tasks[t]? = some (.call spec p)) (hp : S p) (h : c.follow ms = some c') :
    noted (deeds t) c ms = [] ∧ ∃ p', c'.tasks[t]? = some (.call spec p') ∧ S p' := by
  induction ms using List.reverseRecOn generalizing c' with
  | nil =>
    cases h
    exact ⟨rfl, p, ht, hp⟩
  | append_singleton ms m ih =>
    obtain ⟨c₁, hms, hm⟩ := follow_concat.1 h
    have hprefix : ms <+: ms ++ [m] := List.prefix_append ..
    obtain ⟨hnone, q, hq, hS⟩ := ih (fun ms₁ c₂ hpre => hQ ms₁ c₂ (hpre.trans hprefix)) hms
    rw [noted_concat hms hm, hnone, List.nil_append]
    by_cases hmine : ∃ choice, m = .step t choice
    · obtain ⟨choice, rfl⟩ := hmine
      obtain ⟨c₂, next, hcall, rfl⟩ := (step_call hq).1 hm
      obtain ⟨hshared, hS'⟩ := hstep c₁ choice q c₂ next (hQ ms c₁ hprefix hms) hS hcall
      have hset : (c₂.tasks.set t (.call spec next.after))[t]? = some (.call spec next.after) := by
        rw [(callStep_cases hcall).tasks]
        exact List.getElem?_set_self (List.getElem?_eq_some_iff.1 hq).1
      exact ⟨deeds_of_still hset (hout _ hS') hshared, next.after, hset, hS'⟩
    · have hne (choice) : m ≠ .step t choice := fun heq => hmine ⟨choice, heq⟩
      exact ⟨deeds_of_ne hne, q, getElem?_unstepped hm hq rfl hne, hS⟩

theorem TaskStep.cancelled_subset (h : TaskStep c t choice task c₁ task') :
    c.shared.cancelled ⊆ c₁.shared.cancelled := by
  have hsame : c.shared.cancelled ⊆ c.shared.cancelled := List.Subset.refl _
  cases h with
  | opening f h =>
    cases h with
    | install => exact List.subset_append_right ..
    | _ => exact hsame
  | closing f h =>
    cases h with
    | signal d => exact List.subset_append_right ..
    | _ => exact hsame
  | calling f h =>
    cases h with
    | send id n h | sent id n h | unsent id n h => cases h <;> exact hsame
    | _ => exact hsame
  | starting f h => cases h <;> exact hsame
  | disconnecting g h =>
    cases h with
    | signal old => exact List.subset_cons_self ..
    | _ => exact hsame
  | replying g response h => cases h <;> exact hsame
  | connect h => cases h <;> exact hsame
  | receive g h => cases h <;> exact hsame
  | heart g h =>
    cases h with
    | raise => exact List.subset_cons_self ..
    | _ => exact hsame
  | reconnect epoch h => cases h <;> exact hsame
  | discard h =>
    cases h with
    | close h =>
      obtain ⟨_, _, _, _, _, rfl, -, hsubset⟩ := beginClose_eq_some h
      exact hsubset
    | abort tasks =>
      exact foldl_kill_induct (P := fun s => c.shared.cancelled ⊆ s.cancelled) (fun _ _ h => h)
        (fun _ _ h => h) tasks hsame
    | _ => exact hsame

theorem cancelled_subset_of_apply (h : c.apply m = some c') :
    c.shared.cancelled ⊆ c'.shared.cancelled := by
  cases apply_cases h with
  | cancel token => exact List.subset_cons_self ..
  | step _ hstep => exact hstep.cancelled_subset
  | _ => exact List.Subset.refl _

theorem signalled_of_subset {spec : CallSpec} (h : c.shared.cancelled ⊆ c'.shared.cancelled)
    (hc : c.signalled spec = true) : c'.signalled spec = true := by
  obtain ⟨signal, hsignal, hcancelled⟩ := Option.any_eq_true _ _ |>.1 hc
  refine Option.any_eq_true _ _ |>.2 ⟨signal, hsignal, ?_⟩
  simp only [Shared.isCancelled, List.contains_iff_mem] at hcancelled ⊢
  exact h hcancelled

theorem signalled_of_follow {spec : CallSpec} (h : c.follow ms = some c')
    (hc : c.signalled spec = true) : c'.signalled spec = true :=
  signalled_of_subset (follow_induct (P := fun _ c' => c.shared.cancelled ⊆ c'.shared.cancelled) h
    (List.Subset.refl _)
    fun _ _ _ _ _ ih hm => List.Subset.trans ih (cancelled_subset_of_apply hm)) hc

/-- Why a call is not let in, whatever else a run brings. -/
inductive TurnedAway (c : Client) (ms : List Move) (spec : CallSpec) : CallPhase → Prop where
  | blank (h : Text.isBlank spec.method = true) : TurnedAway c ms spec .start
  | signalled {p : CallPhase} (hp : p = .start ∨ p = .checkSignal)
    (h : c.signalled spec = true) : TurnedAway c ms spec p
  | unopened {p : CallPhase} (hp : p.isOutside = true)
    (h : ∀ ms₁ c₁, ms₁ <+: ms → c.follow ms₁ = some c₁ → c₁.shared.status ≠ .opened) :
    TurnedAway c ms spec p

theorem TurnedAway.isOutside {spec : CallSpec} {p : CallPhase} (h : c.TurnedAway ms spec p) :
    p.isOutside = true := by
  cases h with
  | blank h => rfl
  | signalled hp h => obtain rfl | rfl := hp <;> rfl
  | unopened hp h => exact hp

/-- The call waits to be let in, or is over without a result. -/
def isResultless (p : CallPhase) : Prop :=
  p.isOutside = true ∨ ∃ outcome, p = .done outcome ∧ ∀ value, outcome ≠ some (.ok value)

theorem stand_of_isResultless {p : CallPhase} (h : isResultless p) : p.stand = .out := by
  obtain h | ⟨outcome, rfl, -⟩ := h
  · exact stand_of_isOutside h
  · rfl

theorem isResultless_of_failure (failure : Failure) :
    isResultless (.done (some (.error failure))) :=
  .inr ⟨_, rfl, nofun⟩

section Outside

variable {spec : CallSpec} {p : CallPhase} {next : Next CallPhase (Option Outcome)}

theorem callStep_start (h : c.callStep t spec choice .start = some (c₁, next)) :
    c₁ = c ∧ next = if Text.isBlank spec.method then .over (some (.error Registry.blankMethod))
      else .phase .checkSignal := by
  cases choice with
  | run =>
    simp only [callStep] at h
    split at h
    all_goals
      cases h
      simp [*]
  | _ => cases h

theorem callStep_checkSignal (h : c.callStep t spec choice .checkSignal = some (c₁, next)) :
    c₁ = c ∧ next = if c.signalled spec then .over (some (.error .cancelled))
      else .phase .readStatus := by
  cases choice with
  | run =>
    simp only [callStep] at h
    split at h
    all_goals
      cases h
      simp [*]
  | _ => cases h

theorem isResultless_of_admission (h : c.shared.status ≠ .opened)
    (hnext : admission c.shared.status = some next) : isResultless next.after := by
  obtain ⟨hopened, -⟩ | ⟨-, rfl⟩ := admission_eq_some_iff.1 hnext
  · exact absurd hopened h
  · exact isResultless_of_failure _

/-- While the link is not open, nobody is let in. -/
theorem callStep_unopened (h : c.callStep t spec choice p = some (c₁, next))
    (hstatus : c.shared.status ≠ .opened) (hp : p.isOutside = true) :
    c₁.shared = c.shared ∧ isResultless next.after := by
  refine ⟨(callStep_cases h).shared_of_isOutside hp, ?_⟩
  cases p with
  | start =>
    obtain ⟨-, rfl⟩ := callStep_start h
    split
    · exact isResultless_of_failure _
    · exact .inl rfl
  | checkSignal =>
    obtain ⟨-, rfl⟩ := callStep_checkSignal h
    split
    · exact isResultless_of_failure _
    · exact .inl rfl
  | readStatus =>
    cases choice with
    | run =>
      cases h
      cases hadmission : admission c.shared.status with
      | none => exact .inl rfl
      | some next => exact isResultless_of_admission hstatus hadmission
    | _ => cases h
  | awaitOpen =>
    cases choice with
    | settled =>
      obtain ⟨next, hadmission, heq⟩ := Option.map_eq_some_iff.1 h
      cases heq
      exact isResultless_of_admission hstatus hadmission
    | elapsed =>
      simp only [callStep] at h
      split at h <;> cases h
      exact isResultless_of_failure _
    | cancelled =>
      simp only [callStep] at h
      split at h <;> cases h
      exact isResultless_of_failure _
    | dropped =>
      cases h
      exact .inr ⟨none, rfl, nofun⟩
    | _ => cases h
  | _ => cases hp

end Outside

theorem TurnedAway.deeds {spec : CallSpec} {p : CallPhase} (h : c.TurnedAway ms spec p)
    (ht : c.tasks[t]? = some (.call spec p)) (hfollow : c.follow ms = some c') :
    noted (deeds t) c ms = [] ∧ ∃ p', c'.tasks[t]? = some (.call spec p') ∧ isResultless p' := by
  cases h with
  | blank h =>
    have hconfined := deeds_of_confined
      (S := fun p => p = .start ∨ p = .done (some (.error Registry.blankMethod)))
      (Q := fun _ => True) (by rintro _ (rfl | rfl) <;> rfl) ?_ (fun _ _ _ _ => trivial) ht
      (.inl rfl) hfollow
    · obtain ⟨hnone, p', ht', rfl | rfl⟩ := hconfined
      · exact ⟨hnone, _, ht', .inl rfl⟩
      · exact ⟨hnone, _, ht', isResultless_of_failure _⟩
    · rintro c choice _ c₁ next - (rfl | rfl) hstep
      · obtain ⟨rfl, rfl⟩ := callStep_start hstep
        exact ⟨rfl, .inr (by rw [if_pos h]; rfl)⟩
      · cases hstep
  | signalled hp h =>
    have hconfined := deeds_of_confined
      (S := fun p => (p = .start ∨ p = .checkSignal) ∨
        ∃ failure, p = .done (some (.error failure)))
      (Q := fun c => c.signalled spec = true)
      (by rintro _ ((rfl | rfl) | ⟨failure, rfl⟩) <;> rfl) ?_
      (fun _ _ _ hms => signalled_of_follow hms h) ht (.inl hp) hfollow
    · obtain ⟨hnone, p', ht', (rfl | rfl) | ⟨failure, rfl⟩⟩ := hconfined
      · exact ⟨hnone, _, ht', .inl rfl⟩
      · exact ⟨hnone, _, ht', .inl rfl⟩
      · exact ⟨hnone, _, ht', isResultless_of_failure _⟩
    · rintro c choice _ c₁ next hsignalled ((rfl | rfl) | ⟨failure, rfl⟩) hstep
      · obtain ⟨rfl, rfl⟩ := callStep_start hstep
        refine ⟨rfl, ?_⟩
        split
        · exact .inr ⟨_, rfl⟩
        · exact .inl (.inr rfl)
      · obtain ⟨rfl, rfl⟩ := callStep_checkSignal hstep
        exact ⟨rfl, .inr ⟨_, by rw [if_pos hsignalled]; rfl⟩⟩
      · cases hstep
  | unopened hp h =>
    refine deeds_of_confined (S := isResultless) (Q := fun c => c.shared.status ≠ .opened)
      (fun _ => stand_of_isResultless) ?_ h ht (.inl hp) hfollow
    rintro c choice p c₁ next hstatus (hp | ⟨outcome, rfl, -⟩) hstep
    · exact callStep_unopened hstep hstatus hp
    · cases hstep

end DuplexRpc.Client
