import DuplexRpc.Proofs.Client.Steps
import Mathlib.Data.List.Induction
import Mathlib.Logic.Function.Basic

/-!
Moves one after the other, in any order of the tasks. A move of one task leaves the tasks of the
others where they are, those that an abort ends apart, and may start new ones.
-/
namespace DuplexRpc

/-- Tasks as they are when another task starts them. -/
def Task.isNew : Task → Bool
  | receive _ .idle => true
  | heart _ .ticking => true
  | reconnect _ .checkClosed => true
  | _ => false

def Task.isDiscard : Task → Bool
  | discard _ => true
  | _ => false

/-- What a task is for, which never changes. -/
inductive Kind where
  | connect
  | close
  | call (spec : CallSpec)
  | receive (generation : Generation)
  | heart (generation : Generation)
  | reconnect (epoch : Nat)
  | discard

def Task.kind : Task → Kind
  | connect _ => .connect
  | close _ => .close
  | call spec _ => .call spec
  | receive g _ => .receive g
  | heart g _ => .heart g
  | reconnect epoch _ => .reconnect epoch
  | discard _ => .discard

/-- The tasks of a link, which an abort can end. -/
def Task.isServing : Task → Bool
  | receive _ _ => true
  | heart _ _ => true
  | _ => false

namespace Client

variable {config : Config} {c c' c₁ : Client} {t u : TaskId} {choice : Choice} {m : Move}
  {task task' x : Task}

/-- The interleaved run of a list of moves; none if one of them is not possible. -/
def follow (c : Client) (ms : List Move) : Option Client := ms.foldlM apply c

theorem follow_append (c : Client) (ms ms' : List Move) :
    c.follow (ms ++ ms') = (c.follow ms).bind (·.follow ms') :=
  List.foldlM_append

theorem follow_concat {ms : List Move} :
    c.follow (ms ++ [m]) = some c' ↔ ∃ c₁, c.follow ms = some c₁ ∧ c₁.apply m = some c' := by
  rw [follow_append, Option.bind_eq_some_iff]
  simp [follow]

/-- What holds at the start and is kept by every move holds at the end. -/
theorem follow_induct {P : List Move → Client → Prop} {ms : List Move}
    (h : c.follow ms = some c') (hstart : P [] c)
    (hmove : ∀ ms m c₁ c₂, c.follow ms = some c₁ → P ms c₁ → c₁.apply m = some c₂ →
      P (ms ++ [m]) c₂) : P ms c' := by
  induction ms using List.reverseRecOn generalizing c' with
  | nil =>
    cases h
    exact hstart
  | append_singleton ms m ih =>
    obtain ⟨c₁, hms, hm⟩ := follow_concat.1 h
    exact hmove ms m c₁ c' hms (ih hms) hm

theorem reachable_iff_follow : Reachable config c ↔ ∃ ms, (fresh config).follow ms = some c := by
  constructor
  · intro run
    induction run with
    | fresh => exact ⟨[], rfl⟩
    | move m before h ih =>
      obtain ⟨ms, hms⟩ := ih
      exact ⟨ms ++ [m], follow_concat.2 ⟨_, hms, h⟩⟩
  · rintro ⟨ms, hms⟩
    exact follow_induct (P := fun _ => Reachable config) hms .fresh fun _ m _ _ _ run => .move m run

/-- A connect, as the task with this number, that opens its link. -/
def connecting (t : TaskId) : List Move :=
  .start (.connect socket) :: List.replicate 18 (.step t .run) ++
    .step t (.upgraded (some Protocol.subprotocol)) :: List.replicate 4 (.step t .run)

/-- A call, as the task with this number, that waits for its answer. -/
def calling (t : TaskId) : List Move :=
  .start (.call ⟨"m", .null, none, none⟩) :: List.replicate 7 (.step t .run) ++
    [.step t (.written none)]

/-- A close, as the task with this number: the peer answers, the receiver and the heart that it has
found in the link end, and it goes on to its end. -/
def closing (t : TaskId) (receiver : Option TaskId) : List Move :=
  List.replicate 7 (.step t .run) ++ .step t (.written none) ::
    receiver.elim [] (fun r => [.step r .cancelled, .step r .run, .step (r + 1) .cancelled,
      .step t .run, .step t .run]) ++ [.step t .run, .step t .run]

/-- What one move does. -/
inductive MoveStep (c : Client) : Move → Client → Prop where
  | start (request : Request) : MoveStep c (.start request) (c.spawn request.task)
  | register (method : String) (handler : Handler) (registry : Registry) :
    MoveStep c (.register method handler) (c.update fun s => { s with registry })
  | cancel (token : Nat) : MoveStep c (.cancel token) (c.update (·.cancel (.token token)))
  | step {t : TaskId} {choice : Choice} {task task' : Task} {c₁ : Client}
    (ht : c.tasks[t]? = some task) (h : TaskStep c t choice task c₁ task') :
    MoveStep c (.step t choice) ⟨c₁.shared, c₁.tasks.set t task'⟩

theorem apply_cases (h : c.apply m = some c') : MoveStep c m c' := by
  cases m with
  | start request =>
    cases h
    exact .start request
  | register method handler =>
    obtain ⟨registry, rfl⟩ := eq_of_apply_register h
    exact .register method handler registry
  | cancel token =>
    cases h
    exact .cancel token
  | step t choice =>
    obtain ⟨task, c₁, task', ht, hstep, rfl⟩ := step_eq_some_iff.1 h
    exact .step ht (taskStep_cases hstep)

@[simp] theorem OpenFrame.isDiscard_next (f : OpenFrame)
    {next : Next OpenPhase (Except Failure Unit)} :
    (f.next next).isDiscard = false := by
  cases f <;> rcases next with p | ⟨_ | _⟩ <;> rfl

@[simp] theorem CloseFrame.isDiscard_next (f : CloseFrame) {next : Next ClosePhase Unit} :
    (f.next next).isDiscard = false := by
  cases f <;> rcases next with p | _ <;> rfl

@[simp] theorem StartFrame.isDiscard_next (f : StartFrame) {next : Next StartPhase Unit} :
    (f.next next).isDiscard = false := by
  cases f <;> rcases next with p | _ <;> rfl

theorem TaskStep.kind (h : TaskStep c t choice task c₁ task') : task'.kind = task.kind := by
  cases h with
  | @opening f _ _ next h => cases f <;> rcases next with p | ⟨_ | _⟩ <;> rfl
  | @closing f _ _ next h => cases f <;> cases next <;> rfl
  | @calling f _ _ next h =>
    fun_cases CallFrame.next f next <;> rfl
  | @starting f _ _ next h => cases f <;> cases next <;> rfl
  | @disconnecting g _ _ next h => cases next <;> rfl
  | @replying g response _ _ next h => cases next <;> rfl
  | _ => rfl

theorem eq_reconnect_of_kind {epoch : Nat} (h : x.kind = .reconnect epoch) :
    ∃ p, x = .reconnect epoch p := by
  cases x with
  | reconnect epoch' p =>
    cases h
    exact ⟨p, rfl⟩
  | _ => cases h

/-- A new task as a client starts it: a reconnect task has read the epoch. -/
def IsSpawned (c : Client) (x : Task) : Prop :=
  x.isNew = true ∧ ∀ epoch p, x = .reconnect epoch p → epoch = c.shared.epoch

/-- The client has the same tasks as before, and new ones after them. -/
def Grows (c c' : Client) : Prop :=
  ∃ added, c'.tasks = c.tasks ++ added ∧ ∀ x ∈ added, c.IsSpawned x

theorem Grows.of_eq (h : c'.tasks = c.tasks) : Grows c c' :=
  ⟨[], by rw [h, List.append_nil], by simp⟩

theorem Grows.lt (h : Grows c c') (ht : t < c.tasks.length) : t < c'.tasks.length := by
  obtain ⟨added, htasks, -⟩ := h
  rw [htasks, List.length_append]
  exact Nat.lt_of_lt_of_le ht (Nat.le_add_right _ _)

theorem SendStep.tasks {text : String} {p : SendPhase} {next : Next SendPhase (Except Failure Unit)}
    (h : SendStep c t text p c' next) : c'.tasks = c.tasks := by
  cases h <;> rfl

theorem CloseStep.tasks {p : ClosePhase} {next : Next ClosePhase Unit}
    (h : CloseStep c t p c' next) : c'.tasks = c.tasks := by
  cases h <;> rfl

theorem CallStep.tasks {spec : CallSpec} {p : CallPhase} {next : Next CallPhase (Option Outcome)}
    (h : CallStep c t spec choice p c' next) : c'.tasks = c.tasks := by
  cases h with
  | send id n h | sent id n h | unsent id n h => exact h.tasks
  | _ => rfl

/-- A task that does not discard the client leaves the other tasks alone. -/
theorem TaskStep.grows (h : TaskStep c t choice task c₁ task') (hd : task.isDiscard = false) :
    Grows c c₁ := by
  cases h with
  | opening f h =>
    cases h with
    | install => exact ⟨_, rfl, by simp [IsSpawned, Task.isNew]⟩
    | _ => exact .of_eq rfl
  | closing f h => exact .of_eq h.tasks
  | calling f h user => exact .of_eq h.tasks
  | starting f h =>
    cases h with
    | spawn => exact ⟨_, rfl, by simp [IsSpawned, Task.isNew]⟩
    | _ => exact .of_eq rfl
  | disconnecting g h => cases h <;> exact .of_eq rfl
  | replying g response h => exact .of_eq h.tasks
  | connect h => cases h <;> exact .of_eq rfl
  | receive g h => cases h <;> exact .of_eq rfl
  | heart g h => cases h <;> exact .of_eq rfl
  | reconnect epoch h => cases h <;> exact .of_eq rfl
  | discard h => cases hd

theorem TaskStep.grows_or_discards (h : TaskStep c t choice task c₁ task') :
    (task.isDiscard = false ∧ Grows c c₁) ∨
      ∃ p p', task = .discard p ∧ task' = .discard p' ∧ DiscardStep c p c₁ p' := by
  cases hd : task.isDiscard with
  | false => exact .inl ⟨rfl, h.grows hd⟩
  | true =>
    cases h with
    | discard h => exact .inr ⟨_, _, rfl, rfl, h⟩
    | calling f => cases f <;> cases hd
    | opening f | closing f | starting f => simp at hd
    | _ => cases hd

theorem getElem?_stepped (h : Grows c c₁) (ht : t < c.tasks.length) :
    (c₁.tasks.set t task')[t]? = some task' :=
  List.getElem?_set_self (h.lt ht)

theorem getElem?_other (h : Grows c c₁) (hu : c.tasks[u]? = some x) (hne : u ≠ t) :
    (c₁.tasks.set t task')[u]? = some x := by
  obtain ⟨added, htasks, -⟩ := h
  rw [List.getElem?_set_ne (Ne.symm hne), htasks,
    List.getElem?_append_left (List.getElem?_eq_some_iff.1 hu).1, hu]

theorem cases_set_append {tasks added : List Task}
    (hu : ((tasks ++ added).set t task')[u]? = some x) :
    (u = t ∧ x = task') ∨ (u ≠ t ∧ tasks[u]? = some x) ∨
      (u ≠ t ∧ tasks.length ≤ u ∧ added[u - tasks.length]? = some x) := by
  by_cases hut : u = t
  · subst hut
    obtain ⟨hlt, hx⟩ := List.getElem?_eq_some_iff.1 hu
    rw [List.getElem_set_self] at hx
    exact .inl ⟨rfl, hx.symm⟩
  · rw [List.getElem?_set_ne (Ne.symm hut), List.getElem?_append] at hu
    split at hu
    · exact .inr (.inl ⟨hut, hu⟩)
    next hge => exact .inr (.inr ⟨hut, Nat.le_of_not_lt hge, hu⟩)

theorem cases_set {tasks : List Task} (hu : (tasks.set t task')[u]? = some x) :
    (u = t ∧ x = task') ∨ (u ≠ t ∧ tasks[u]? = some x) := by
  rw [← List.append_nil tasks] at hu
  obtain hself | hother | ⟨-, -, hnew⟩ := cases_set_append hu
  · exact .inl hself
  · exact .inr hother
  · cases hnew

theorem cases_spawn_index (hu : (c.spawn task).tasks[u]? = some x) :
    c.tasks[u]? = some x ∨ (u = c.tasks.length ∧ x = task) := by
  rw [spawn, List.getElem?_append] at hu
  split at hu
  · exact .inl hu
  next hge =>
    obtain ⟨hlt, hx⟩ := List.getElem?_eq_some_iff.1 hu
    have hzero : u - c.tasks.length = 0 := by simpa using hlt
    refine .inr ⟨Nat.le_antisymm (Nat.le_of_sub_eq_zero hzero) (Nat.le_of_not_lt hge), ?_⟩
    exact List.mem_singleton.1 (List.mem_of_getElem? hu)

theorem cases_spawn (hu : (c.spawn task).tasks[u]? = some x) :
    c.tasks[u]? = some x ∨ x = task :=
  (cases_spawn_index hu).imp_right And.right

/-- Where a task after a step comes from: it has stepped, or it is where it was, or it is new. -/
theorem Grows.cases_task (h : Grows c c₁) (hu : (c₁.tasks.set t task')[u]? = some x) :
    (u = t ∧ x = task') ∨ (u ≠ t ∧ c.tasks[u]? = some x) ∨
      (u ≠ t ∧ c.tasks.length ≤ u ∧ c.IsSpawned x) := by
  obtain ⟨added, htasks, hadded⟩ := h
  exact (cases_set_append (htasks ▸ hu)).imp_right (Or.imp_right fun ⟨hut, hle, hx⟩ =>
    ⟨hut, hle, hadded x (List.mem_of_getElem? hx)⟩)

/-- A view of the tasks changes where the step is, if it does not tell new tasks from none. -/
theorem Grows.view_stepped {α : Type} (h : Grows c c₁) (ht : t < c.tasks.length)
    (view : Task → α) (none : α) (hnew : ∀ x, x.isNew = true → view x = none) :
    (fun u => ((c₁.tasks.set t task')[u]?).elim none view) =
      Function.update (fun u => (c.tasks[u]?).elim none view) t (view task') := by
  funext u
  by_cases hu : u = t
  · subst hu
    rw [Function.update_self, getElem?_stepped h ht]
    rfl
  · rw [Function.update_of_ne hu]
    cases hx : (c₁.tasks.set t task')[u]? with
    | none =>
      cases hx' : c.tasks[u]? with
      | none => rfl
      | some x => cases hx.symm.trans (getElem?_other h hx' hu)
    | some x =>
      obtain ⟨rfl, -⟩ | ⟨-, hx'⟩ | ⟨-, hle, hnew'⟩ := h.cases_task hx
      · exact absurd rfl hu
      · rw [hx']
      · rw [List.getElem?_eq_none hle]
        exact hnew x hnew'.1

theorem view_spawn {α : Type} (c : Client) (view : Task → α) {none : α} (h : view task = none) :
    (fun u : TaskId => ((c.spawn task).tasks[u]?).elim none view) =
      fun u => (c.tasks[u]?).elim none view := by
  funext u
  rw [spawn, List.getElem?_append]
  split
  · rfl
  next hge =>
    rw [List.getElem?_eq_none (Nat.le_of_not_lt hge)]
    cases hx : [task][u - c.tasks.length]? with
    | none => rfl
    | some x => exact List.mem_singleton.1 (List.mem_of_getElem? hx) ▸ h

/-- An abort leaves alone what does not serve a link, or is over. -/
theorem getElem?_kill (hu : c.tasks[u]? = some x) (hx : x.isServing = true → x.isDone = true)
    (t : TaskId) : (c.kill t).tasks[u]? = some x := by
  have hset {task task'} (ht : c.tasks[t]? = some task) (hsame : task = x → task' = x) :
      (c.tasks.set t task')[u]? = some x := by
    by_cases hut : t = u
    · subst hut
      rw [ht, Option.some.injEq] at hu
      rw [List.getElem?_set_self (List.getElem?_eq_some_iff.1 ht).1, hsame hu]
    · rw [List.getElem?_set_ne hut, hu]
  unfold kill
  dsimp only
  split
  next g p h =>
    refine hset h ?_
    rintro rfl
    cases p <;> first | rfl | cases hx rfl
  next g p h =>
    have hsame : Task.heart g p = x → Task.heart g .done = x := by
      rintro rfl
      cases p <;> first | rfl | cases hx rfl
    split <;> exact hset h hsame
  next => exact hu

theorem getElem?_foldl_kill (tasks : List TaskId) (hu : c.tasks[u]? = some x)
    (hx : x.isServing = true → x.isDone = true) : (tasks.foldl kill c).tasks[u]? = some x := by
  induction tasks generalizing c with
  | nil => exact hu
  | cons t tasks ih => exact ih (getElem?_kill hu hx t)

theorem tasks_beginClose {p p' : ClosePhase} (h : c.beginClose p = some (c', p')) :
    c'.tasks = c.tasks := by
  cases p <;> cases h <;> rfl

theorem DiscardStep.getElem? {p p' : DiscardPhase} (h : DiscardStep c p c' p')
    (hu : c.tasks[u]? = some x) (hx : x.isServing = true → x.isDone = true) :
    c'.tasks[u]? = some x := by
  cases h with
  | close h => rw [tasks_beginClose h, hu]
  | abort tasks => exact getElem?_foldl_kill tasks hu hx
  | _ => exact hu

/-- The task that discards the client is not aborted with the others. -/
theorem DiscardStep.getElem?_set_self {p p' : DiscardPhase} (h : DiscardStep c p c' p')
    (ht : c.tasks[t]? = some (.discard p)) : (c'.tasks.set t x)[t]? = some x :=
  List.getElem?_set_self (List.getElem?_eq_some_iff.1 (h.getElem? ht (by rintro ⟨⟩))).1

/-- An abort leaves a task as it is or ends it. -/
theorem cases_kill (hu : (c.kill t).tasks[u]? = some x) :
    c.tasks[u]? = some x ∨ (x.isServing = true ∧ x.isDone = true) := by
  have hset {task} (htask : task.isServing = true ∧ task.isDone = true)
      (h : (c.tasks.set t task)[u]? = some x) :
      c.tasks[u]? = some x ∨ (x.isServing = true ∧ x.isDone = true) := by
    by_cases hut : t = u
    · subst hut
      obtain ⟨hlt, hx⟩ := List.getElem?_eq_some_iff.1 h
      rw [List.getElem_set_self] at hx
      exact .inr (hx ▸ htask)
    · rw [List.getElem?_set_ne hut] at h
      exact .inl h
  revert hu
  unfold kill
  dsimp only
  split
  next g p h => exact hset ⟨rfl, rfl⟩
  next g p h => split <;> exact hset ⟨rfl, rfl⟩
  next => exact .inl

theorem DiscardStep.cases_task {p p' : DiscardPhase} (h : DiscardStep c p c' p')
    (hu : c'.tasks[u]? = some x) :
    c.tasks[u]? = some x ∨ (x.isServing = true ∧ x.isDone = true) := by
  cases h with
  | close h => exact .inl (tasks_beginClose h ▸ hu)
  | abort tasks =>
    induction tasks generalizing c with
    | nil => exact .inl hu
    | cons t tasks ih => exact (ih hu).elim cases_kill .inr
  | _ => exact .inl hu

/-- A task that is over takes no step. -/
theorem taskStep_eq_none (h : task.isDone = true) : c.taskStep t choice task = none := by
  revert h
  fun_cases Task.isDone task
  all_goals
    intro h
    first
      | rfl
      | cases h

/-- A move of the user leaves all tasks as they are. -/
theorem getElem?_of_outer (h : c.apply m = some c') (hm : ∀ t choice, m ≠ .step t choice)
    (hu : c.tasks[u]? = some x) : c'.tasks[u]? = some x := by
  cases apply_cases h with
  | start request => rw [spawn, List.getElem?_append_left (List.getElem?_eq_some_iff.1 hu).1, hu]
  | register method handler registry => exact hu
  | cancel token => exact hu
  | step ht hstep => exact absurd rfl (hm _ _)

/-- What is over stays as it is. -/
theorem getElem?_of_isDone (h : c.apply m = some c') (hu : c.tasks[u]? = some x)
    (hx : x.isDone = true) : c'.tasks[u]? = some x := by
  cases m with
  | step t choice =>
    obtain ⟨task, c₁, task', ht, hstep, rfl⟩ := step_eq_some_iff.1 h
    have hne : u ≠ t := by
      rintro rfl
      rw [hu, Option.some.injEq] at ht
      rw [taskStep_eq_none (ht ▸ hx)] at hstep
      cases hstep
    obtain ⟨-, hgrows⟩ | ⟨p, p', -, -, hdiscard⟩ := (taskStep_cases hstep).grows_or_discards
    · exact getElem?_other hgrows hu hne
    · rw [List.getElem?_set_ne (Ne.symm hne), hdiscard.getElem? hu fun _ => hx]
  | _ => exact getElem?_of_outer h nofun hu

/-- Where a task after a move comes from. -/
inductive Origin (c : Client) (m : Move) (c' : Client) (u : TaskId) (x : Task) : Prop where
  | started (request : Request) (hm : m = .start request) (hx : x = request.task)
  | spawned (hnew : c.IsSpawned x)
  | stayed (hm : ∀ choice, m ≠ .step u choice) (hu : c.tasks[u]? = some x)
  | stepped {choice : Choice} {task : Task} {c₁ : Client} (hm : m = .step u choice)
    (hu : c.tasks[u]? = some task) (h : TaskStep c u choice task c₁ x)
    (hshared : c'.shared = c₁.shared)
  | aborted (hserving : x.isServing = true) (hdone : x.isDone = true)

theorem origin_of_apply (h : c.apply m = some c') (hu : c'.tasks[u]? = some x) :
    Origin c m c' u x := by
  cases apply_cases h with
  | start request =>
    rw [spawn, List.getElem?_append] at hu
    split at hu
    · exact .stayed (by rintro _ ⟨⟩) hu
    · exact .started request rfl (List.mem_singleton.1 (List.mem_of_getElem? hu))
  | register method handler registry => exact .stayed (by rintro _ ⟨⟩) hu
  | cancel token => exact .stayed (by rintro _ ⟨⟩) hu
  | @step t choice task task' c₁ ht hstep =>
    have hother (hne : u ≠ t) (choice' : Choice) : Move.step t choice ≠ .step u choice' := by
      intro heq
      cases heq
      exact hne rfl
    obtain ⟨-, hgrows⟩ | ⟨p, p', rfl, rfl, hdiscard⟩ := hstep.grows_or_discards
    · obtain ⟨rfl, rfl⟩ | ⟨hne, hu⟩ | ⟨-, -, hnew⟩ := hgrows.cases_task hu
      · exact .stepped rfl ht hstep rfl
      · exact .stayed (hother hne) hu
      · exact .spawned hnew
    · by_cases hut : u = t
      · subst hut
        rw [hdiscard.getElem?_set_self ht, Option.some.injEq] at hu
        subst hu
        exact .stepped rfl ht hstep rfl
      · rw [List.getElem?_set_ne (Ne.symm hut)] at hu
        obtain hu | ⟨hserving, hdone⟩ := hdiscard.cases_task hu
        · exact .stayed (hother hut) hu
        · exact .aborted hserving hdone

/-- No reconnect task has read an epoch that is still to come. -/
theorem Reachable.reconnect_epoch_le (run : Reachable config c) {epoch : Nat} {p : ReconnectPhase}
    (hu : c.tasks[u]? = some (.reconnect epoch p)) : epoch ≤ c.shared.epoch := by
  induction run generalizing p with
  | fresh => cases hu
  | move m before h ih =>
    have hages := (apply_ages h).epoch
    cases origin_of_apply h hu with
    | started request hm hx => cases request <;> cases hx
    | spawned hnew => exact hnew.2 epoch p rfl ▸ hages
    | stayed hm hu => exact Nat.le_trans (ih hu) hages
    | stepped hm hu h =>
      obtain ⟨q, rfl⟩ := eq_reconnect_of_kind h.kind.symm
      exact Nat.le_trans (ih hu) hages
    | aborted hserving hdone => cases hserving

/-- The generation has been taken out of the link. -/
def Gone (c : Client) (g : Generation) : Prop :=
  g ≤ c.shared.link.generation ∧ c.shared.link.installed ≠ some g

theorem Gone.ages {g : Generation} (h : c.Gone g) (hages : c.shared.Ages c'.shared) : c'.Gone g :=
  ⟨Nat.le_trans h.1 hages.generation, hages.installed_ne h.1 h.2⟩

/-- The steps of a receiver, whatever it is at. -/
inductive ReceiverStep (c : Client) (t : TaskId) (g : Generation) (c₁ : Client) :
    ReceivePhase → ReceivePhase → Prop where
  | receive {p p' : ReceivePhase} (h : ReceiveStep c p c₁ p') : ReceiverStep c t g c₁ p p'
  | reply (response : Response) {p : SendPhase} {next : Next SendPhase (Except Failure Unit)}
    (h : SendStep c t response.wire p c₁ next) :
    ReceiverStep c t g c₁ (.replying response p) (next.elim (.replying response) .idle)
  | pass {p : DisconnectPhase} {next : Next DisconnectPhase Unit}
    (h : DisconnectStep c t g p c₁ next) :
    ReceiverStep c t g c₁ (.disconnecting p) (next.elim .disconnecting .done)
  | start {p : StartPhase} {next : Next StartPhase Unit} (h : StartStep c p c₁ next) :
    ReceiverStep c t g c₁ (.disconnecting (.starting p))
      (next.elim (fun p => .disconnecting (.starting p)) .done)

theorem TaskStep.receiver {g : Generation} {p' : ReceivePhase}
    (h : TaskStep c t choice task c₁ (.receive g p')) :
    ∃ p, task = .receive g p ∧ ReceiverStep c t g c₁ p p' := by
  generalize hx : Task.receive g p' = x at h
  cases h with
  | @opening f _ _ next h => cases f <;> rcases next with _ | ⟨_ | _⟩ <;> cases hx
  | @closing f _ _ next h => cases f <;> cases next <;> cases hx
  | @calling f _ _ next h =>
    revert hx
    fun_cases CallFrame.next f next <;> rintro ⟨⟩
  | @starting f _ _ next h =>
    cases f with
    | receive g => cases next <;> cases hx <;> exact ⟨_, rfl, .start h⟩
    | reconnect epoch => cases next <;> cases hx
  | @disconnecting g _ _ next h => cases next <;> cases hx <;> exact ⟨_, rfl, .pass h⟩
  | @replying g response _ _ next h =>
    cases next <;> cases hx <;> exact ⟨_, rfl, .reply response h⟩
  | receive g h =>
    cases hx
    exact ⟨_, rfl, .receive h⟩
  | _ => cases hx

/-- A pass comes from a pass, or is about to begin. -/
theorem TaskStep.pass_cases {g : Generation} {p : DisconnectPhase}
    (h : TaskStep c t choice task c₁ (.receive g (.disconnecting p))) :
    p = .detach ∨ ∃ q, task = .receive g (.disconnecting q) ∧
      (q = .detach → DisconnectStep c t g q c₁ (.phase p)) := by
  obtain ⟨q, rfl, hstep⟩ := h.receiver
  generalize hp : ReceivePhase.disconnecting p = p' at hstep
  cases hstep with
  | receive h =>
    cases h with
    | stop =>
      cases hp
      exact .inl rfl
    | handled id result => cases id <;> cases hp
    | _ => cases hp
  | @reply response _ next h => cases next <;> cases hp
  | @pass _ next h =>
    cases next <;> cases hp
    exact .inr ⟨_, rfl, fun _ => h⟩
  | @start _ next h =>
    cases next <;> cases hp
    exact .inr ⟨_, rfl, nofun⟩

/-- Once it has begun, a pass has taken out its generation. -/
theorem Reachable.gone_of_pass (run : Reachable config c) {g : Generation} {p : DisconnectPhase}
    (hu : c.tasks[u]? = some (.receive g (.disconnecting p))) (hp : p ≠ .detach) : c.Gone g := by
  induction run generalizing p with
  | fresh => cases hu
  | @move c c' m before h ih =>
    have hages := apply_ages h
    cases origin_of_apply h hu with
    | started request hm hx => cases request <;> cases hx
    | spawned hnew => cases hnew.1
    | stayed hm hu => exact (ih hu hp).ages hages
    | stepped hm hu hstep hshared =>
      obtain rfl | ⟨q, rfl, hdetach⟩ := hstep.pass_cases
      · exact absurd rfl hp
      · by_cases hq : q = .detach
        · subst hq
          cases hdetach rfl with
          | detach hold hg => exact ⟨hg ▸ hages.generation, by simp [hshared, update]⟩
        · exact (ih hu hq).ages hages
    | aborted hserving hdone => cases hdone

end Client
end DuplexRpc
