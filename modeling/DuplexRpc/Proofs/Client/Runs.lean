import DuplexRpc.Proofs.Client.Evolution

/-!
Moves and runs. A move steps one task and leaves the connects of the others; a cooperative run can
be continued and evaluated. In every reachable client the installed generation is the last one or
an earlier one, no connect has read an epoch that is still to come, and the table of calls is sound.
-/
namespace DuplexRpc.Client

variable {config : Config} {c c' : Client} {t u : TaskId} {choice : Choice} {m : Move}

theorem step_eq_some_iff : c.step t choice = some c' ↔ ∃ task c₁ task',
    c.tasks[t]? = some task ∧ c.taskStep t choice task = some (c₁, task') ∧
      c' = ⟨c₁.shared, c₁.tasks.set t task'⟩ := by
  simp only [step, Option.bind_eq_bind, Option.bind_eq_some_iff, Option.pure_def, Option.some.injEq,
    Prod.exists]
  constructor
  · rintro ⟨task, htask, c₁, task', hstep, rfl⟩
    exact ⟨task, c₁, task', htask, hstep, rfl⟩
  · rintro ⟨task, c₁, task', htask, hstep, rfl⟩
    exact ⟨task, htask, c₁, task', hstep, rfl⟩

/-- The steps that one task takes alone. -/
def steps (c : Client) (t : TaskId) : List Choice → Option Client
  | [] => some c
  | choice :: choices => (c.step t choice).bind (·.steps t choices)

theorem steps_append (c : Client) (t : TaskId) (choices choices' : List Choice) :
    c.steps t (choices ++ choices') = (c.steps t choices).bind (·.steps t choices') := by
  induction choices generalizing c with
  | nil => rfl
  | cons choice choices ih =>
    simp only [List.cons_append, steps, Option.bind_assoc]
    exact congrArg _ (funext fun c₁ => ih c₁)

/-- What every step of the task keeps holds after all of them. -/
theorem steps_induct {P : Client → Prop}
    (hstep : ∀ c choice c', c.step t choice = some c' → P c → P c') {choices : List Choice}
    (h : c.steps t choices = some c') (hc : P c) : P c' := by
  induction choices generalizing c with
  | nil =>
    cases h
    exact hc
  | cons choice choices ih =>
    obtain ⟨c₁, h₁, h⟩ := Option.bind_eq_some_iff.1 h
    exact ih h (hstep c choice c₁ h₁ hc)

theorem taskStep_eq_connect {task : Task} {c₁ : Client} {p' : ConnectPhase}
    (h : c.taskStep t choice task = some (c₁, .connect p')) :
    ∃ p, task = .connect p ∧ c.connectStep t choice p = some (c₁, p') := by
  cases task with
  | connect p =>
    obtain ⟨⟨c₂, p₂⟩, hstep, heq⟩ := Option.map_eq_some_iff.1 h
    cases heq
    exact ⟨p, rfl, hstep⟩
  | close p =>
    cases p with
    | none => cases h
    | some p =>
      obtain ⟨⟨c₂, next⟩, -, heq⟩ := Option.map_eq_some_iff.1 h
      cases next <;> cases heq
  | call spec p =>
    obtain ⟨⟨c₂, next⟩, -, heq⟩ := Option.map_eq_some_iff.1 h
    cases next <;> cases heq
  | _ =>
    obtain ⟨r, -, heq⟩ := Option.map_eq_some_iff.1 h
    cases heq

/-- A connect begins by looking at its target. -/
theorem connectStep_start {target : Target} {c₁ : Client} {p' : ConnectPhase}
    (h : c.connectStep t choice (.start target) = some (c₁, p')) :
    c₁ = c ∧ ((∃ url, endpointOf target = .ok url ∧ p' = .closing url .mark) ∨
      ∃ failure, endpointOf target = .error failure ∧ p' = .done (.error failure)) := by
  cases choice with
  | run =>
    simp only [connectStep] at h
    split at h
    next url hurl =>
      cases h
      exact ⟨rfl, .inl ⟨url, hurl, rfl⟩⟩
    next failure hfailure =>
      cases h
      exact ⟨rfl, .inr ⟨failure, hfailure, rfl⟩⟩
  | _ => cases h

theorem step_ages (h : c.step t choice = some c') : c.shared.Ages c'.shared := by
  obtain ⟨task, c₁, task', -, hstep, rfl⟩ := step_eq_some_iff.1 h
  exact (taskStep_evolves hstep).ages

theorem eq_of_apply_register {method : String} {handler : Handler}
    (h : c.apply (.register method handler) = some c') :
    ∃ registry, c' = c.update fun s => { s with registry } := by
  unfold apply register at h
  cases hr : c.shared.registry.register method handler with
  | error failure => simp [hr, Except.map, Except.toOption] at h
  | ok registry =>
    simp only [hr, Except.map, Except.toOption, Option.some.injEq] at h
    exact ⟨registry, h.symm⟩

theorem apply_ages (h : c.apply m = some c') : c.shared.Ages c'.shared := by
  cases m with
  | start request =>
    cases h
    exact .quiet rfl rfl rfl (.refl _)
  | register method handler =>
    obtain ⟨registry, rfl⟩ := eq_of_apply_register h
    exact .quiet rfl rfl rfl (.refl _)
  | cancel token =>
    cases h
    exact .quiet rfl rfl rfl (.refl _)
  | step t choice => exact step_ages h

/-- What a connect has become of by a move: either it has stepped, or it is where it was. -/
theorem connect_after_apply {p : ConnectPhase} (h : c.apply m = some c')
    (hu : c.tasks[u]? = some (.connect p)) :
    ((∀ choice, m ≠ .step u choice) ∧ c'.tasks[u]? = some (.connect p)) ∨
      ∃ choice c₁ p', m = .step u choice ∧ c.connectStep u choice p = some (c₁, p') ∧
        c'.shared = c₁.shared ∧ c'.tasks[u]? = some (.connect p') := by
  cases m with
  | start request =>
    cases h
    have hlt := (List.getElem?_eq_some_iff.1 hu).1
    exact .inl ⟨by simp, by rw [spawn, List.getElem?_append_left hlt, hu]⟩
  | register method handler =>
    obtain ⟨registry, rfl⟩ := eq_of_apply_register h
    exact .inl ⟨by simp, hu⟩
  | cancel token =>
    cases h
    exact .inl ⟨by simp, hu⟩
  | step t choice =>
    obtain ⟨task, c₁, task', htask, hstep, rfl⟩ := step_eq_some_iff.1 h
    have hkept := (taskStep_evolves hstep).connects u p
    by_cases htu : t = u
    · subst htu
      rw [hu, Option.some.injEq] at htask
      subst htask
      obtain ⟨⟨c₂, p'⟩, hconnect, heq⟩ := Option.map_eq_some_iff.1 hstep
      cases heq
      have hlt := (List.getElem?_eq_some_iff.1 (hkept.2 hu)).1
      exact .inr ⟨choice, c₁, p', rfl, hconnect, rfl, List.getElem?_set_self hlt⟩
    · refine .inl ⟨fun choice' heq => ?_, ?_⟩
      · cases heq
        exact htu rfl
      · exact (List.getElem?_set_ne htu).trans (hkept.2 hu)

/-- Where a connect after a move comes from: it is new, has stepped, or is where it was. -/
theorem connect_before_apply {p' : ConnectPhase} (h : c.apply m = some c')
    (hu : c'.tasks[u]? = some (.connect p')) :
    (∃ target, p' = .start target) ∨
      ((∀ choice, m ≠ .step u choice) ∧ c.tasks[u]? = some (.connect p')) ∨
      ∃ choice c₁ p, m = .step u choice ∧ c.tasks[u]? = some (.connect p) ∧
        c.connectStep u choice p = some (c₁, p') ∧ c'.shared = c₁.shared := by
  cases m with
  | start request =>
    cases h
    rw [spawn, List.getElem?_append] at hu
    split at hu
    · exact .inr (.inl ⟨by simp, hu⟩)
    · have hmem := List.mem_singleton.1 (List.mem_of_getElem? hu)
      cases request <;> cases hmem
      exact .inl ⟨_, rfl⟩
  | register method handler =>
    obtain ⟨registry, rfl⟩ := eq_of_apply_register h
    exact .inr (.inl ⟨by simp, hu⟩)
  | cancel token =>
    cases h
    exact .inr (.inl ⟨by simp, hu⟩)
  | step t choice =>
    obtain ⟨task, c₁, task', htask, hstep, rfl⟩ := step_eq_some_iff.1 h
    by_cases htu : t = u
    · subst htu
      have hlt : t < c₁.tasks.length := by
        simpa using (List.getElem?_eq_some_iff.1 hu).1
      rw [List.getElem?_set_self hlt, Option.some.injEq] at hu
      obtain ⟨p, rfl, hconnect⟩ := taskStep_eq_connect (hu ▸ hstep)
      exact .inr (.inr ⟨choice, c₁, p, rfl, htask, hconnect, rfl⟩)
    · refine .inr (.inl ⟨fun choice' heq => ?_, ?_⟩)
      · cases heq
        exact htu rfl
      · exact ((taskStep_evolves hstep).connects u p').1 ((List.getElem?_set_ne htu).symm.trans hu)

/-- Where a cooperative run may lead from a client and a turn. -/
inductive Continues (turn : Option TaskId) (c : Client) : Option TaskId → Client → Prop where
  | here : Continues turn c turn c
  | move {turn' : Option TaskId} {c' c'' : Client} (m : Move) (before : Continues turn c turn' c')
    (keeps : c'.keepsTurn turn' m = true) (h : c'.apply m = some c'') :
    Continues turn c (m.turn turn') c''

variable {turn turn' : Option TaskId}

theorem Cooperative.continues (run : Cooperative config turn c) (h : Continues turn c turn' c') :
    Cooperative config turn' c' := by
  induction h with
  | here => exact run
  | move m before keeps h ih => exact .move m ih keeps h

theorem Continues.trans {turn'' : Option TaskId} {c'' : Client} (h : Continues turn c turn' c')
    (h' : Continues turn' c' turn'' c'') : Continues turn c turn'' c'' := by
  induction h' with
  | here => exact h
  | move m before keeps h ih => exact .move m ih keeps h

/-- The cooperative run of a list of moves; none if one of them is not possible. -/
def run (turn : Option TaskId) (c : Client) : List Move → Option (Option TaskId × Client)
  | [] => some (turn, c)
  | m :: ms =>
    if c.keepsTurn turn m then (c.apply m).bind fun c' => run (m.turn turn) c' ms else none

theorem continues_run {ms : List Move} (h : c.run turn ms = some (turn', c')) :
    Continues turn c turn' c' := by
  induction ms generalizing turn c with
  | nil =>
    cases h
    exact .here
  | cons m ms ih =>
    unfold run at h
    split at h
    next keeps =>
      obtain ⟨c₁, h₁, h⟩ := Option.bind_eq_some_iff.1 h
      exact Continues.trans (.move m .here keeps h₁) (ih h)
    next => cases h

theorem Cooperative.reachable (run : Cooperative config turn c) : Reachable config c := by
  induction run with
  | fresh => exact .fresh
  | move m before keeps h ih => exact .move m ih h

theorem Reachable.installed_le (run : Reachable config c) {g : Generation}
    (hg : c.shared.link.installed = some g) : g ≤ c.shared.link.generation := by
  induction run generalizing g with
  | fresh => cases hg
  | move m before h ih =>
    have hages := apply_ages h
    rcases hages.installed g hg with hg | ⟨-, hle⟩
    · exact Nat.le_trans (ih hg) hages.generation
    · exact hle

theorem Reachable.sound_listed (run : Reachable config c) :
    c.shared.pending.Sound ∧ c.shared.pending.Listed := by
  induction run with
  | fresh => exact ⟨.empty, .empty⟩
  | move m before h ih => exact (apply_ages h).pending.sound_listed ih

def socketUrl : Url := ⟨"ws", "", none, some (.domain "h"), none, "/", false, none, none⟩

/-- A parser for the one URL of the scripts. -/
def parseSocket (text : String) : Except String Url :=
  if text = "ws://h/" then .ok socketUrl else .error "relative URL without a base"

def socket : Target := .of parseSocket "ws://h/"

end DuplexRpc.Client
