import DuplexRpc.Proofs.Backoff
import DuplexRpc.Proofs.Client.Histories
import DuplexRpc.Proofs.Client.Turns

/-!
The reconnect mark. It has one owner at a time, which clears it or passes it on, unless a delay that
cannot be computed breaks the owner off.
-/
namespace DuplexRpc

/-- The task has set the reconnect mark, or has been started for it, and has yet to clear it. -/
def Task.ownsMark : Task → Bool
  | receive _ (.disconnecting (.starting .readEpoch)) => true
  | reconnect _ (.opening _) => true
  | reconnect _ .clear => true
  | reconnect _ (.starting .readEpoch) => true
  | reconnect _ p => p.isLooping
  | _ => false

/-- A reconnect task ends where it draws its delay. -/
def Task.BreaksOff (task task' : Task) : Prop :=
  ∃ epoch, task = .reconnect epoch .count ∧ task' = .reconnect epoch .done

namespace Client

variable {config : Config} {c c' c₁ : Client} {t u : TaskId} {choice : Choice}
  {turn : Option TaskId} {task task' x : Task} {m : Move}

theorem Reachable.config_eq (run : Reachable config c) : c.shared.config = config := by
  induction run with
  | fresh => rfl
  | move m before h ih =>
    cases apply_cases h with
    | step _ hstep => exact hstep.keepsSettings.config.trans ih
    | _ => exact ih

/-- Who owns the mark has set it, and nobody else owns it. -/
structure Marked (c : Client) : Prop where
  marked : ∀ (t : TaskId) x, c.tasks[t]? = some x → x.ownsMark = true →
    c.shared.reconnecting = true
  unique : ∀ (t u : TaskId) x y, c.tasks[t]? = some x → c.tasks[u]? = some y →
    x.ownsMark = true → y.ownsMark = true → t = u

/-- What a step does to the mark. -/
inductive MarkStep (c c₁ : Client) (task task' : Task) : Prop where
  | same (mark : c₁.shared.reconnecting = c.shared.reconnecting)
    (owns : task'.ownsMark = task.ownsMark)
    (new : ∃ added, c₁.tasks = c.tasks ++ added ∧ ∀ x ∈ added, x.ownsMark = false)
  | claim (before : c.shared.reconnecting = false) (mark : c₁.shared.reconnecting = true)
    (owns : task'.ownsMark = true) (tasks : c₁.tasks = c.tasks)
  | passOn (before : task.ownsMark = true) (owns : task'.ownsMark = false)
    (mark : c₁.shared.reconnecting = c.shared.reconnecting)
    (tasks : c₁.tasks = c.tasks ++ [.reconnect c.shared.epoch .checkClosed])
  | clear (before : task.ownsMark = true) (mark : c₁.shared.reconnecting = false)
    (owns : task'.ownsMark = false) (tasks : c₁.tasks = c.tasks)
  | breakOff (before : task.ownsMark = true) (owns : task'.ownsMark = false)
    (tasks : c₁.tasks = c.tasks) (h : task.BreaksOff task')

theorem MarkStep.still (mark : c₁.shared.reconnecting = c.shared.reconnecting)
    (owns : task'.ownsMark = task.ownsMark) (tasks : c₁.tasks = c.tasks) :
    MarkStep c c₁ task task' :=
  .same mark owns ⟨[], by simp [tasks], by simp⟩

theorem ownsMark_of_isLooping {epoch : Nat} {p : ReconnectPhase} (h : p.isLooping = true) :
    (Task.reconnect epoch p).ownsMark = true := by
  cases p <;> first | rfl | cases h

theorem TaskStep.mark (h : TaskStep c t choice task c₁ task') (hd : task.isDiscard = false) :
    MarkStep c c₁ task task' := by
  cases h with
  | @opening f _ p next h =>
    have howns : (f.next next).ownsMark = (f.next (.phase p)).ownsMark := by
      cases f <;> rcases next with _ | ⟨_ | _⟩ <;> rfl
    cases h with
    | install held h => exact .same rfl howns ⟨_, rfl, by simp [Task.ownsMark]⟩
    | _ => exact .still rfl howns rfl
  | @closing f _ p next h =>
    have howns : (f.next next).ownsMark = (f.next (.phase p)).ownsMark := by
      cases f <;> cases next <;> rfl
    cases h <;> exact .still rfl howns rfl
  | @calling f _ p next h =>
    have howns : (f.next next).ownsMark = (f.next (.phase p)).ownsMark := by
      fun_cases CallFrame.next f next <;> rfl
    refine .still ?_ howns h.tasks
    cases h with
    | send id n h | sent id n h | unsent id n h => cases h <;> rfl
    | _ => rfl
  | starting f h =>
    cases h with
    | claim h => cases f <;> exact .claim h rfl rfl rfl
    | spawn => cases f <;> exact .passOn rfl rfl rfl rfl
    | _ => cases f <;> exact .still rfl rfl rfl
  | disconnecting g h => cases h <;> exact .still rfl rfl rfl
  | replying g response h => cases h <;> exact .still rfl rfl rfl
  | connect h => cases h <;> exact .still rfl rfl rfl
  | receive g h =>
    cases h with
    | handled id result => cases id <;> exact .still rfl rfl rfl
    | _ => exact .still rfl rfl rfl
  | heart g h => cases h <;> exact .still rfl rfl rfl
  | reconnect epoch h =>
    cases h with
    | look hp hp' =>
      exact .still rfl ((ownsMark_of_isLooping hp').trans (ownsMark_of_isLooping hp).symm) rfl
    | leave hp h => exact .still rfl (ownsMark_of_isLooping hp).symm rfl
    | breakOff hsample hnone => exact .breakOff rfl rfl rfl ⟨epoch, rfl, rfl⟩
    | clear => exact .clear rfl rfl rfl rfl
    | _ => exact .still rfl rfl rfl
  | discard h => cases hd

/-- When the only owner gives the mark up, nobody owns it. -/
theorem Marked.no_owner (h : c.Marked) (ht : c.tasks[t]? = some task)
    (before : task.ownsMark = true) (owns : task'.ownsMark = false) (tasks : c₁.tasks = c.tasks)
    (hu : (c₁.tasks.set t task')[u]? = some x) : x.ownsMark = false := by
  obtain ⟨rfl, rfl⟩ | ⟨hut, hu⟩ := cases_set (tasks ▸ hu)
  · exact owns
  · cases hx : x.ownsMark with
    | false => rfl
    | true => exact absurd (h.unique u t x task hu ht hx before) hut

theorem Marked.step (h : c.Marked) (ht : c.tasks[t]? = some task)
    (hm : MarkStep c c₁ task task') : Marked ⟨c₁.shared, c₁.tasks.set t task'⟩ := by
  cases hm with
  | same mark owns new =>
    obtain ⟨added, htasks, hadded⟩ := new
    have hbefore (u : TaskId) (x : Task) (hu : (c₁.tasks.set t task')[u]? = some x)
        (hx : x.ownsMark = true) : ∃ y, c.tasks[u]? = some y ∧ y.ownsMark = true := by
      obtain ⟨rfl, rfl⟩ | ⟨-, hu⟩ | ⟨-, -, hnew⟩ := cases_set_append (htasks ▸ hu)
      · exact ⟨task, ht, owns ▸ hx⟩
      · exact ⟨x, hu, hx⟩
      · cases (hadded x (List.mem_of_getElem? hnew)).symm.trans hx
    refine ⟨fun u x hu hx => ?_, fun u v x y hu hv hx hy => ?_⟩
    · obtain ⟨y, hu', hy⟩ := hbefore u x hu hx
      exact mark.trans (h.marked u y hu' hy)
    · obtain ⟨x', hu', hx'⟩ := hbefore u x hu hx
      obtain ⟨y', hv', hy'⟩ := hbefore v y hv hy
      exact h.unique u v x' y' hu' hv' hx' hy'
  | claim before mark owns tasks =>
    -- nobody owned the mark before
    have hself (u : TaskId) (x : Task) (hu : (c₁.tasks.set t task')[u]? = some x)
        (hx : x.ownsMark = true) : u = t := by
      obtain ⟨rfl, -⟩ | ⟨-, hu⟩ := cases_set (tasks ▸ hu)
      · rfl
      · cases before.symm.trans (h.marked u x hu hx)
    exact ⟨fun _ _ _ _ => mark, fun u v x y hu hv hx hy => (hself u x hu hx).trans
      (hself v y hv hy).symm⟩
  | passOn before owns mark tasks =>
    -- the new task is the only owner now
    have hself (u : TaskId) (x : Task) (hu : (c₁.tasks.set t task')[u]? = some x)
        (hx : x.ownsMark = true) : u = c.tasks.length := by
      obtain ⟨rfl, rfl⟩ | ⟨hut, hu⟩ | ⟨-, hle, hnew⟩ := cases_set_append (tasks ▸ hu)
      · cases owns.symm.trans hx
      · exact absurd (h.unique u t x task hu ht hx before) hut
      · have hzero : u - c.tasks.length = 0 := by
          simpa using (List.getElem?_eq_some_iff.1 hnew).1
        exact Nat.le_antisymm (Nat.le_of_sub_eq_zero hzero) hle
    exact ⟨fun _ _ _ _ => mark.trans (h.marked t task ht before),
      fun u v x y hu hv hx hy => (hself u x hu hx).trans (hself v y hv hy).symm⟩
  | clear before mark owns tasks | breakOff before owns tasks broken =>
    have hnone (u : TaskId) (x : Task) (hu : (c₁.tasks.set t task')[u]? = some x) :
        x.ownsMark = false := h.no_owner ht before owns tasks hu
    exact ⟨fun u x hu hx => (by cases (hnone u x hu).symm.trans hx),
      fun u _ x _ hu _ hx => (by cases (hnone u x hu).symm.trans hx)⟩

@[simp] theorem ownsMark_request (request : Request) : request.task.ownsMark = false := by
  cases request <;> rfl

theorem Reachable.marked (run : Reachable config c) (hkept : c.IsKept) : c.Marked := by
  induction run with
  | fresh => exact ⟨fun t x ht => (by cases ht), fun t u x y ht => (by cases ht)⟩
  | @move c c' m before h ih =>
    have hkept₀ := hkept.before h
    have hmarked := ih hkept₀
    cases apply_cases h with
    | start request =>
      have hbefore (u : TaskId) (x : Task) (hu : (c.spawn request.task).tasks[u]? = some x)
          (hx : x.ownsMark = true) : c.tasks[u]? = some x := by
        obtain hu | rfl := cases_spawn hu
        · exact hu
        · cases (ownsMark_request request).symm.trans hx
      exact ⟨fun u x hu hx => hmarked.marked u x (hbefore u x hu hx) hx,
        fun u v x y hu hv hx hy =>
          hmarked.unique u v x y (hbefore u x hu hx) (hbefore v y hv hy) hx hy⟩
    | register method handler registry => exact ⟨hmarked.marked, hmarked.unique⟩
    | cancel token => exact ⟨hmarked.marked, hmarked.unique⟩
    | step ht hstep => exact hmarked.step ht (hstep.mark (hkept₀.not_discard ht))

/-- Some task breaks off from one state to the next. -/
def BreaksOff (c c' : Client) : Prop :=
  ∃ (t : TaskId) (x x' : Task), c.tasks[t]? = some x ∧ c'.tasks[t]? = some x' ∧ x.BreaksOff x'

/-- States that some interleaving leads to in which no task breaks off. -/
inductive Unbroken (config : Config) : Client → Prop where
  | fresh : Unbroken config (fresh config)
  | move {c c' : Client} (m : Move) (before : Unbroken config c) (h : c.apply m = some c')
    (whole : ¬c.BreaksOff c') : Unbroken config c'

theorem Unbroken.reachable (run : Unbroken config c) : Reachable config c := by
  induction run with
  | fresh => exact .fresh
  | move m before h whole ih => exact .move m ih h

/-- Somebody owns the mark while it is set. -/
theorem Unbroken.exists_owner (run : Unbroken config c) (hkept : c.IsKept)
    (hmark : c.shared.reconnecting = true) :
    ∃ (t : TaskId) (x : Task), c.tasks[t]? = some x ∧ x.ownsMark = true := by
  induction run with
  | fresh => cases hmark
  | @move c c' m before h whole ih =>
    have hkept₀ := hkept.before h
    cases apply_cases h with
    | @step t choice task task' c₁ ht hstep =>
      have hd := hkept₀.not_discard ht
      have hgrows := hstep.grows hd
      have hstepped : (c₁.tasks.set t task')[t]? = some task' :=
        getElem?_stepped hgrows (List.getElem?_eq_some_iff.1 ht).1
      cases hstep.mark hd with
      | same mark owns new =>
        obtain ⟨u, y, hu, hy⟩ := ih hkept₀ (mark.symm.trans hmark)
        by_cases hut : u = t
        · subst hut
          cases ht.symm.trans hu
          exact ⟨u, task', hstepped, owns.trans hy⟩
        · exact ⟨u, y, getElem?_other hgrows hu hut, hy⟩
      | claim before mark owns tasks => exact ⟨t, task', hstepped, owns⟩
      | passOn before owns mark tasks =>
        have hlt := (List.getElem?_eq_some_iff.1 ht).1
        refine ⟨c.tasks.length, .reconnect c.shared.epoch .checkClosed, ?_, rfl⟩
        simp [tasks, Nat.ne_of_lt hlt]
      | clear before mark owns tasks => cases mark.symm.trans hmark
      | breakOff _ owns tasks broken => exact absurd ⟨t, task, task', ht, hstepped, broken⟩ whole
    | _ =>
      obtain ⟨u, x, hu, hx⟩ := ih hkept₀ hmark
      exact ⟨u, x, getElem?_of_outer h nofun hu, hx⟩

theorem TaskStep.not_breaksOff (h : TaskStep c t choice task c₁ task')
    (hdelay : c.shared.config.backoff.Reckonable) : ¬task.BreaksOff task' := by
  rintro ⟨epoch, hcount, hdone⟩
  cases h with
  | opening f h | closing f h | calling f h | starting f h => cases f <;> cases hcount
  | reconnect e h =>
    cases hcount
    cases hdone
    cases h with
    | look hp hp' => cases hp'
    | breakOff hsample hnone => cases hnone ▸ hdelay _ _ hsample
  | _ => cases hcount

theorem Reachable.not_breaksOff (run : Reachable config c) (hdelay : config.backoff.Reckonable)
    (h : c.apply m = some c') : ¬c.BreaksOff c' := by
  rintro ⟨t, x, x', hx, hx', hbreaks⟩
  have hdelay' : c.shared.config.backoff.Reckonable := run.config_eq ▸ hdelay
  obtain ⟨epoch, rfl, rfl⟩ := id hbreaks
  cases origin_of_apply h hx' with
  | started request hm heq => cases request <;> cases heq
  | spawned hnew => cases hnew.1
  | stayed hm hsame => cases hx.symm.trans hsame
  | stepped hm ht hstep =>
    cases hx.symm.trans ht
    exact hstep.not_breaksOff hdelay' hbreaks
  | aborted hserving hdone => cases hserving

theorem Reachable.unbroken (run : Reachable config c) (hdelay : config.backoff.Reckonable) :
    Unbroken config c := by
  induction run with
  | fresh => exact .fresh
  | move m before h ih => exact .move m ih h (before.not_breaksOff hdelay h)

end Client
end DuplexRpc
