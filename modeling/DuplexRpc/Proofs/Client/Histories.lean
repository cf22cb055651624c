import DuplexRpc.Proofs.Client.Interleaving

/-!
Histories. Something is noted about every move of a run, and what has been noted by the end can be
set against the client that the run has led to. A move makes of each task one of few things, most
often nothing.
-/
namespace DuplexRpc.Client

variable {c c' c₁ : Client} {t u : TaskId} {choice : Choice} {m : Move} {ms ms' : List Move}
  {task task' x : Task} {turn turn' : Option TaskId}

theorem follow_cons :
    c.follow (m :: ms) = some c' ↔ ∃ c₁, c.apply m = some c₁ ∧ c₁.follow ms = some c' := by
  simp only [follow, List.foldlM_cons, Option.bind_eq_bind, Option.bind_eq_some_iff]

section Noted

variable {α : Type} {note : Client → Move → Client → List α}

/-- What is noted about the moves of a run, in their order. -/
def noted (note : Client → Move → Client → List α) (c : Client) : List Move → List α
  | [] => []
  | m :: ms => (c.apply m).elim [] fun c' => note c m c' ++ noted note c' ms

theorem noted_append (h : c.follow ms = some c₁) :
    noted note c (ms ++ ms') = noted note c ms ++ noted note c₁ ms' := by
  induction ms generalizing c with
  | nil =>
    cases h
    rfl
  | cons m ms ih =>
    obtain ⟨c₂, hm, h⟩ := follow_cons.1 h
    simp only [List.cons_append, noted, hm, Option.elim_some, ih h, List.append_assoc]

theorem noted_concat (h : c.follow ms = some c₁) (hm : c₁.apply m = some c') :
    noted note c (ms ++ [m]) = noted note c ms ++ note c₁ m c' := by
  rw [noted_append h]
  simp only [noted, hm, Option.elim_some, List.append_nil]

end Noted

theorem run_cons : c.run turn (m :: ms) = some (turn', c') ↔ c.keepsTurn turn m = true ∧
    ∃ c₁, c.apply m = some c₁ ∧ c₁.run (m.turn turn) ms = some (turn', c') := by
  simp only [run]
  split
  next keeps => simp only [keeps, true_and, Option.bind_eq_some_iff]
  next keeps => simp only [keeps, false_and, reduceCtorEq, Bool.false_eq_true]

theorem run_append (turn : Option TaskId) (c : Client) (ms ms' : List Move) :
    c.run turn (ms ++ ms') = (c.run turn ms).bind fun r => r.2.run r.1 ms' := by
  induction ms generalizing turn c with
  | nil => rfl
  | cons m ms ih =>
    simp only [List.cons_append, run]
    split
    · rw [Option.bind_assoc]
      exact congrArg _ (funext fun c₁ => ih _ c₁)
    · rfl

theorem run_concat : c.run turn (ms ++ [m]) = some (turn', c') ↔ ∃ turn₁ c₁,
    c.run turn ms = some (turn₁, c₁) ∧ c₁.keepsTurn turn₁ m = true ∧ c₁.apply m = some c' ∧
      turn' = m.turn turn₁ := by
  rw [run_append, Option.bind_eq_some_iff]
  constructor
  · rintro ⟨⟨turn₁, c₁⟩, hms, hm⟩
    simp only [run] at hm
    split at hm
    next keeps =>
      obtain ⟨c₂, happly, heq⟩ := Option.bind_eq_some_iff.1 hm
      cases heq
      exact ⟨turn₁, c₁, hms, keeps, happly, rfl⟩
    next => cases hm
  · rintro ⟨turn₁, c₁, hms, keeps, happly, rfl⟩
    exact ⟨(turn₁, c₁), hms, by simp only [run, keeps, if_true, happly, Option.bind_some]⟩

/-- What holds at the start and is kept by every move in its turn holds at the end. -/
theorem run_induct {P : Option TaskId → Client → Prop} (h : c.run turn ms = some (turn', c'))
    (hstart : P turn c)
    (hmove : ∀ ms₁ m turn₁ c₁ c₂, ms₁ ++ [m] <+: ms → c.run turn ms₁ = some (turn₁, c₁) →
      P turn₁ c₁ → c₁.keepsTurn turn₁ m = true → c₁.apply m = some c₂ → P (m.turn turn₁) c₂) :
    P turn' c' := by
  induction ms using List.reverseRecOn generalizing turn' c' with
  | nil =>
    cases h
    exact hstart
  | append_singleton ms m ih =>
    obtain ⟨turn₁, c₁, hms, keeps, hm, rfl⟩ := run_concat.1 h
    refine hmove ms m turn₁ c₁ c' (List.prefix_refl _) hms (ih hms ?_) keeps hm
    exact fun ms₁ m₁ turn₂ c₂ c₃ hpre =>
      hmove ms₁ m₁ turn₂ c₂ c₃ (hpre.trans (List.prefix_append ..))

theorem follow_of_run (h : c.run turn ms = some (turn', c')) : c.follow ms = some c' := by
  induction ms using List.reverseRecOn generalizing turn' c' with
  | nil =>
    cases h
    rfl
  | append_singleton ms m ih =>
    obtain ⟨turn₁, c₁, hms, -, hm, -⟩ := run_concat.1 h
    exact follow_concat.2 ⟨c₁, ih hms, hm⟩

/-- What every move of some kind keeps holds after a run of such moves. -/
theorem follow_induct_of_forall {P : Client → Prop} {Q : Move → Prop} (hms : ∀ m ∈ ms, Q m)
    (h : c.follow ms = some c') (hstart : P c)
    (hmove : ∀ m c₁ c₂, Q m → c₁.apply m = some c₂ → P c₁ → P c₂) : P c' := by
  induction ms generalizing c with
  | nil =>
    cases h
    exact hstart
  | cons m ms ih =>
    obtain ⟨c₁, hm, h⟩ := follow_cons.1 h
    exact ih (fun m' hm' => hms m' (.tail _ hm')) h
      (hmove m c c₁ (hms m (.head _)) hm hstart)

theorem TaskStep.getElem?_set_self (h : TaskStep c t choice task c₁ task')
    (ht : c.tasks[t]? = some task) : (c₁.tasks.set t task')[t]? = some task' := by
  obtain ⟨-, hgrows⟩ | ⟨p, p', rfl, rfl, hdiscard⟩ := h.grows_or_discards
  · exact getElem?_stepped hgrows (List.getElem?_eq_some_iff.1 ht).1
  · exact hdiscard.getElem?_set_self ht

theorem exists_step_of_taskStep (ht : c.tasks[t]? = some task)
    (h : c.taskStep t choice task = some (c₁, task')) : ∃ c', c.step t choice = some c' ∧
      c'.tasks[t]? = some task' ∧ c'.shared = c₁.shared :=
  ⟨⟨c₁.shared, c₁.tasks.set t task'⟩, step_eq_some_iff.2 ⟨_, _, _, ht, h, rfl⟩,
    (taskStep_cases h).getElem?_set_self ht, rfl⟩

/-- What a move makes of the task with a number. -/
inductive Becomes (c : Client) (m : Move) (c' : Client) (t : TaskId) :
    Option Task → Option Task → Prop where
  | kept (x : Option Task) (hm : ∀ choice, m ≠ .step t choice) : Becomes c m c' t x x
  | started (request : Request) (hm : m = .start request) :
    Becomes c m c' t none (some request.task)
  | spawned {x : Task} (hm : ∀ choice, m ≠ .step t choice) (hnew : c.IsSpawned x) :
    Becomes c m c' t none (some x)
  | stepped {choice : Choice} {task task' : Task} {c₁ : Client} (hm : m = .step t choice)
    (h : TaskStep c t choice task c₁ task') (hshared : c'.shared = c₁.shared) :
    Becomes c m c' t (some task) (some task')
  | aborted {x x' : Task} (hm : ∀ choice, m ≠ .step t choice) (hkind : x'.kind = x.kind)
    (hserving : x'.isServing = true) (hdone : x'.isDone = true) :
    Becomes c m c' t (some x) (some x')

/-- An abort leaves a task as it is, or ends one that serves a link. -/
theorem task_kill (c : Client) (t u : TaskId) : (c.kill t).tasks[u]? = c.tasks[u]? ∨
    ∃ x x', c.tasks[u]? = some x ∧ (c.kill t).tasks[u]? = some x' ∧ x'.kind = x.kind ∧
      x'.isServing = true ∧ x'.isDone = true := by
  have hset {task task'} (ht : c.tasks[t]? = some task) (hkind : task'.kind = task.kind)
      (hserving : task'.isServing = true) (hdone : task'.isDone = true) :
      (c.tasks.set t task')[u]? = c.tasks[u]? ∨ ∃ x x', c.tasks[u]? = some x ∧
        (c.tasks.set t task')[u]? = some x' ∧ x'.kind = x.kind ∧ x'.isServing = true ∧
          x'.isDone = true := by
    by_cases hut : t = u
    · subst hut
      have hlt := (List.getElem?_eq_some_iff.1 ht).1
      exact .inr ⟨task, task', ht, List.getElem?_set_self hlt, hkind, hserving, hdone⟩
    · exact .inl (List.getElem?_set_ne hut)
  unfold kill
  dsimp only
  split
  next g p h => exact hset h rfl rfl rfl
  next g p h => split <;> exact hset h rfl rfl rfl
  next => exact .inl rfl

theorem task_foldl_kill (tasks : List TaskId) (c : Client) (u : TaskId) :
    (tasks.foldl kill c).tasks[u]? = c.tasks[u]? ∨
      ∃ x x', c.tasks[u]? = some x ∧ (tasks.foldl kill c).tasks[u]? = some x' ∧
        x'.kind = x.kind ∧ x'.isServing = true ∧ x'.isDone = true := by
  induction tasks generalizing c with
  | nil => exact .inl rfl
  | cons t tasks ih =>
    rw [List.foldl_cons]
    obtain hkill | ⟨x, x', hx, hx', hkind, hdone⟩ := task_kill c t u
    · rw [← hkill]
      exact ih _
    · obtain hrest | ⟨y, y', hy, hy', hkind', hdone'⟩ := ih (c.kill t)
      · exact .inr ⟨x, x', hx, hrest.trans hx', hkind, hdone⟩
      · cases hx'.symm.trans hy
        exact .inr ⟨x, y', hx, hy', hkind'.trans hkind, hdone'⟩

theorem DiscardStep.kept_or_ended {p p' : DiscardPhase} (h : DiscardStep c p c' p') (u : TaskId) :
    c'.tasks[u]? = c.tasks[u]? ∨ ∃ x x', c.tasks[u]? = some x ∧ c'.tasks[u]? = some x' ∧
      x'.kind = x.kind ∧ x'.isServing = true ∧ x'.isDone = true := by
  cases h with
  | close h => exact .inl (by rw [tasks_beginClose h])
  | abort tasks => exact task_foldl_kill tasks c u
  | _ => exact .inl rfl

/-- What leaving the outbound lock and leaving the table keep, aborts keep. -/
theorem foldl_kill_induct {P : Shared → Prop} (hlock : ∀ s t, P s → P (s.leave t))
    (htable : ∀ s n, P s → P { s with pending := (s.pending.dropReceiver n).dropGuard n })
    (tasks : List TaskId) (h : P c.shared) : P (tasks.foldl kill c).shared := by
  have hkill {c : Client} (t : TaskId) (h : P c.shared) : P (c.kill t).shared := by
    unfold kill
    dsimp only
    split
    next => exact hlock _ t h
    next => split <;> first | exact htable _ _ (hlock _ t h) | exact hlock _ t h
    next => exact hlock _ t h
  induction tasks generalizing c with
  | nil => exact h
  | cons t tasks ih => exact ih (hkill t h)

/-- What outlasts the client's end. -/
structure Lasting where
  config : Config
  registry : Registry
  endpoint : Option Url
  issued : Nat
  attempts : UInt32
  sent : List Sent

def lasting (s : Shared) : Lasting :=
  ⟨s.config, s.registry, s.link.endpoint, s.issued, s.attempts, s.sent⟩

theorem DiscardStep.lasting_eq {p p' : DiscardPhase} (h : DiscardStep c p c' p') :
    lasting c'.shared = lasting c.shared := by
  cases h with
  | close h =>
    obtain ⟨_, _, _, _, _, rfl, hendpoint, -⟩ := beginClose_eq_some h
    exact congrArg (Lasting.mk _ _ · _ _ _) hendpoint
  | abort tasks =>
    exact foldl_kill_induct (P := fun s => lasting s = lasting c.shared) (fun _ _ h => h)
      (fun _ _ h => h) tasks rfl
  | _ => rfl

/-- Nobody changes the configuration. The endpoint is set in one step of a connect, and the handlers
run where a receiver takes a frame. -/
structure KeepsSettings (task : Task) (s s' : Shared) : Prop where
  config : s'.config = s.config
  endpoint : (∀ url, task ≠ .connect (.setEndpoint url)) → s'.link.endpoint = s.link.endpoint
  registry : (∀ g, task ≠ .receive g .idle) → s'.registry = s.registry

theorem TaskStep.keepsSettings (h : TaskStep c t choice task c₁ task') :
    KeepsSettings task c.shared c₁.shared := by
  have plain {s s' : Shared} (hconfig : s'.config = s.config)
      (hendpoint : s'.link.endpoint = s.link.endpoint) (hregistry : s'.registry = s.registry) :
      KeepsSettings task s s' := ⟨hconfig, fun _ => hendpoint, fun _ => hregistry⟩
  cases h with
  | opening f h => cases h <;> exact plain rfl rfl rfl
  | closing f h => cases h <;> exact plain rfl rfl rfl
  | calling f h =>
    cases h with
    | send id n h | sent id n h | unsent id n h => cases h <;> exact plain rfl rfl rfl
    | _ => exact plain rfl rfl rfl
  | starting f h => cases h <;> exact plain rfl rfl rfl
  | disconnecting g h => cases h <;> exact plain rfl rfl rfl
  | replying g response h => cases h <;> exact plain rfl rfl rfl
  | connect h =>
    cases h with
    | setEndpoint url => exact ⟨rfl, fun hne => absurd rfl (hne url), fun _ => rfl⟩
    | _ => exact plain rfl rfl rfl
  | receive g h =>
    cases h with
    | handle registry calls id result => exact ⟨rfl, fun _ => rfl, fun hne => absurd rfl (hne g)⟩
    | _ => exact plain rfl rfl rfl
  | heart g h => cases h <;> exact plain rfl rfl rfl
  | reconnect epoch h => cases h <;> exact plain rfl rfl rfl
  | discard h =>
    have hlasting := h.lasting_eq
    exact plain (congrArg Lasting.config hlasting) (congrArg Lasting.endpoint hlasting)
      (congrArg Lasting.registry hlasting)

theorem becomes_of_apply (h : c.apply m = some c') (t : TaskId) :
    Becomes c m c' t c.tasks[t]? c'.tasks[t]? := by
  cases apply_cases h with
  | start request =>
    have hm (choice) : Move.start request ≠ .step t choice := by simp
    cases hx : c.tasks[t]? with
    | some x =>
      rw [spawn, List.getElem?_append_left (List.getElem?_eq_some_iff.1 hx).1, hx]
      exact .kept _ hm
    | none =>
      cases hx' : (c.spawn request.task).tasks[t]? with
      | none => exact .kept _ hm
      | some x =>
        obtain hold | rfl := cases_spawn hx'
        · cases hx.symm.trans hold
        · exact .started request rfl
  | register method handler registry => exact .kept _ (by simp)
  | cancel token => exact .kept _ (by simp)
  | @step u choice task task' c₁ hu hstep =>
    by_cases htu : t = u
    · subst htu
      rw [hstep.getElem?_set_self hu, hu]
      exact .stepped rfl hstep rfl
    · have hm (choice') : Move.step u choice ≠ .step t choice' := by
        intro heq
        cases heq
        exact htu rfl
      rw [List.getElem?_set_ne (Ne.symm htu)]
      obtain ⟨-, added, htasks, hadded⟩ | ⟨p, p', -, -, hdiscard⟩ := hstep.grows_or_discards
      · rw [htasks, List.getElem?_append]
        split
        · exact .kept _ hm
        next hge =>
          rw [List.getElem?_eq_none (Nat.le_of_not_lt hge)]
          cases hx : added[t - c.tasks.length]? with
          | none => exact .kept _ hm
          | some x => exact .spawned hm (hadded x (List.mem_of_getElem? hx))
      · obtain hsame | ⟨x, x', hx, hx', hkind, hserving, hdone⟩ := hdiscard.kept_or_ended t
        · rw [hsame]
          exact .kept _ hm
        · rw [hx, hx']
          exact .aborted hm hkind hserving hdone

theorem isServing_eq_of_kind (h : task'.kind = task.kind) : task'.isServing = task.isServing := by
  cases task <;> cases task' <;> first | rfl | cases h

/-- What serves no link stays where it is unless it steps. -/
theorem getElem?_unstepped (h : c.apply m = some c') (hx : c.tasks[t]? = some x)
    (hserving : x.isServing = false) (hm : ∀ choice, m ≠ .step t choice) :
    c'.tasks[t]? = some x := by
  have hbecomes := becomes_of_apply h t
  rw [hx] at hbecomes
  generalize hx' : c'.tasks[t]? = y at hbecomes
  cases hbecomes with
  | kept => rfl
  | stepped heq => exact absurd heq (hm _)
  | aborted _ hkind hserving' => cases (isServing_eq_of_kind hkind ▸ hserving').symm.trans hserving

end DuplexRpc.Client
