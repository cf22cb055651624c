import DuplexRpc.Proofs.Client.Interleaving
import DuplexRpc.Proofs.Pending.Books

/-!
Calls leave nothing behind. Whatever happens to a client and in which order, its tasks keep the
books of the table of waiting calls: what is open belongs to a call or a probe that has not left,
and what has left is gone for good.
-/
namespace DuplexRpc

def CallPhase.stand : CallPhase → Stand
  | register id => .ticket id
  | sending _ n _ => .holds n
  | awaitAnswer n => .holds n
  | leaving n _ => .holds n
  | _ => .out

def Task.stand : Task → Stand
  | call _ p => p.stand
  | heart _ (.probing p) => p.stand
  | _ => .out

namespace Client

/-- Where the task stands with the table of waiting calls. -/
def stand (c : Client) (t : TaskId) : Stand := (c.tasks[t]?).elim .out Task.stand

def books (c : Client) : Books := ⟨c.shared.issued, c.shared.pending, c.stand⟩

variable {config : Config} {c c' c₁ : Client} {t u : TaskId} {choice : Choice} {m : Move}
  {task task' : Task}

theorem stand_of_getElem? (h : c.tasks[t]? = some task) : c.stand t = task.stand := by
  rw [stand, h]
  rfl

theorem stand_of_isNew {x : Task} (h : x.isNew = true) : x.stand = .out := by
  unfold Task.isNew at h
  split at h <;> first | rfl | cases h

theorem stand_stepped (h : Grows c c₁) (ht : t < c.tasks.length) (s : Shared) :
    stand ⟨s, c₁.tasks.set t task'⟩ = Function.update c.stand t task'.stand :=
  h.view_stepped ht Task.stand .out fun _ => stand_of_isNew

/-- Nothing to keep books about. -/
theorem books_spawn (c : Client) (h : task.stand = .out) : (c.spawn task).books = c.books :=
  congrArg (Books.mk c.shared.issued c.shared.pending) (view_spawn c Task.stand h)

/-- No more than outcomes for some waiting calls. -/
inductive Delivers (c c' : Client) : Prop where
  | nothing (hissued : c'.shared.issued = c.shared.issued)
    (hpending : c'.shared.pending = c.shared.pending)
  | resolve (id : String) (outcome : Outcome) (hissued : c'.shared.issued = c.shared.issued)
    (hpending : c'.shared.pending = (c.shared.pending.resolve id outcome).2)
  | failAll (failure : Failure) (hissued : c'.shared.issued = c.shared.issued)
    (hpending : c'.shared.pending = (c.shared.pending.failAll failure).2)

theorem Delivers.deals (h : Delivers c c') (stand : TaskId → Stand) :
    Books.Deals ⟨c.shared.issued, c.shared.pending, stand⟩
      ⟨c'.shared.issued, c'.shared.pending, stand⟩ := by
  cases h with
  | nothing hissued hpending => rw [hissued, hpending]
  | resolve id outcome hissued hpending =>
    rw [hissued, hpending]
    exact .single (.resolve _ id outcome)
  | failAll failure hissued hpending =>
    rw [hissued, hpending]
    exact .single (.failAll _ failure)

theorem SendStep.delivers {text : String} {p : SendPhase}
    {next : Next SendPhase (Except Failure Unit)} (h : SendStep c t text p c' next) :
    Delivers c c' := by
  cases h <;> exact .nothing rfl rfl

theorem OpenStep.delivers {epoch : Nat} {p : OpenPhase}
    {next : Next OpenPhase (Except Failure Unit)} (h : OpenStep c t epoch p c' next) :
    Delivers c c' := by
  cases h with
  | failRetired => exact .failAll .connectionClosed rfl rfl
  | _ => exact .nothing rfl rfl

theorem CloseStep.delivers {p : ClosePhase} {next : Next ClosePhase Unit}
    (h : CloseStep c t p c' next) : Delivers c c' := by
  cases h with
  | fail => exact .failAll .connectionClosed rfl rfl
  | _ => exact .nothing rfl rfl

theorem StartStep.delivers {p : StartPhase} {next : Next StartPhase Unit}
    (h : StartStep c p c' next) : Delivers c c' := by
  cases h <;> exact .nothing rfl rfl

theorem DisconnectStep.delivers {g : Generation} {p : DisconnectPhase}
    {next : Next DisconnectPhase Unit} (h : DisconnectStep c t g p c' next) : Delivers c c' := by
  cases h with
  | failClosed | fail => exact .failAll .connectionClosed rfl rfl
  | _ => exact .nothing rfl rfl

theorem ReceiveStep.delivers {p p' : ReceivePhase} (h : ReceiveStep c p c' p') : Delivers c c' := by
  cases h with
  | settle r =>
    cases hid : Envelope.idKey r.id with
    | some id => exact .resolve id r.outcome rfl (by simp only [update, Response.settle, hid])
    | none => exact .nothing rfl (by simp only [update, Response.settle, hid])
  | _ => exact .nothing rfl rfl

@[simp] theorem CallFrame.stand_next (f : CallFrame) (next : Next CallPhase (Option Outcome)) :
    (f.next next).stand = next.elim CallPhase.stand .out := by
  fun_cases CallFrame.next f next <;> rfl

@[simp] theorem OpenFrame.stand_next (f : OpenFrame) (next : Next OpenPhase (Except Failure Unit)) :
    (f.next next).stand = .out := by
  cases f <;> rcases next with p | ⟨_ | _⟩ <;> rfl

@[simp] theorem CloseFrame.stand_next (f : CloseFrame) (next : Next ClosePhase Unit) :
    (f.next next).stand = .out := by
  cases f <;> rcases next with p | _ <;> rfl

@[simp] theorem StartFrame.stand_next (f : StartFrame) (next : Next StartPhase Unit) :
    (f.next next).stand = .out := by
  cases f <;> rcases next with p | _ <;> rfl

@[simp] theorem stand_passNext (g : Generation) (next : Next DisconnectPhase Unit) :
    (passNext g next).stand = .out := by
  cases next <;> rfl

@[simp] theorem stand_replyNext (g : Generation) (response : Response)
    (next : Next SendPhase (Except Failure Unit)) : (replyNext g response next).stand = .out := by
  cases next <;> rfl

theorem stand_of_isOutside {p : CallPhase} (h : p.isOutside = true) : p.stand = .out := by
  cases p <;> first | rfl | cases h

theorem CallStep.deals {spec : CallSpec} {p : CallPhase} {next : Next CallPhase (Option Outcome)}
    (h : CallStep c t spec choice p c' next) {stand : TaskId → Stand} (ht : stand t = p.stand) :
    Books.Deals ⟨c.shared.issued, c.shared.pending, stand⟩
      ⟨c'.shared.issued, c'.shared.pending,
        Function.update stand t (next.elim CallPhase.stand .out)⟩ := by
  -- a step that changes neither its own stand nor the table
  have stays {c' : Client} {next : Next CallPhase (Option Outcome)} (hd : Delivers c c')
      (hsame : next.elim CallPhase.stand .out = p.stand) :
      Books.Deals ⟨c.shared.issued, c.shared.pending, stand⟩
        ⟨c'.shared.issued, c'.shared.pending,
          Function.update stand t (next.elim CallPhase.stand .out)⟩ := by
    rw [hsame, ← ht, Function.update_eq_self]
    exact hd.deals stand
  cases h with
  | look hp hp' =>
    exact stays (.nothing rfl rfl) ((stand_of_isOutside hp').trans (stand_of_isOutside hp).symm)
  | turnedAway hp | enter hp => exact stays (.nothing rfl rfl) (stand_of_isOutside hp).symm
  | allocate => exact .single (.allocate ⟨_, _, stand⟩ t ht)
  | register hr => exact .single (.register ⟨_, _, stand⟩ t ht hr)
  | refuse id failure => exact .single (.refuse ⟨_, _, stand⟩ t ht)
  | send id n h | sent id n h | unsent id n h => exact stays h.delivers rfl
  | leave n outcome => exact .single (.leave ⟨_, _, stand⟩ t ht)
  | _ => exact stays (.nothing rfl rfl) rfl

theorem books_set (s : Shared) (ht : t < c.tasks.length) :
    books ⟨s, c.tasks.set t task'⟩ =
      ⟨s.issued, s.pending, Function.update c.stand t task'.stand⟩ :=
  congrArg (Books.mk s.issued s.pending) (stand_stepped (.of_eq rfl) ht s)

theorem deals_kill (c : Client) (t : TaskId) : Books.Deals c.books (c.kill t).books := by
  unfold kill
  dsimp only
  split
  next g p h =>
    have hlt := (List.getElem?_eq_some_iff.1 h).1
    have hstand : c.stand t = .out := stand_of_getElem? h
    rw [books_set _ hlt]
    simp only [Task.stand]
    rw [← hstand, show (c.update (·.leave t)).stand = c.stand from rfl, Function.update_eq_self]
    exact .refl
  next g p h =>
    have hlt := (List.getElem?_eq_some_iff.1 h).1
    have hstand : c.stand t = _ := stand_of_getElem? h
    have hdone (s : Shared) : books ⟨s, c.tasks.set t (.heart g .done)⟩ =
        ⟨s.issued, s.pending, Function.update c.stand t .out⟩ := books_set s hlt
    have hstays (hout : c.stand t = .out) :
        c.books = ⟨c.shared.issued, c.shared.pending, Function.update c.stand t .out⟩ := by
      rw [← hout, Function.update_eq_self]
      rfl
    cases p with
    | probing q =>
      cases q with
      | register id => exact hdone _ ▸ .single (.refuse c.books t hstand)
      | sending id n p => exact hdone (c.leave n).shared ▸ .single (.leave c.books t hstand)
      | awaitAnswer n => exact hdone (c.leave n).shared ▸ .single (.leave c.books t hstand)
      | leaving n outcome => exact hdone (c.leave n).shared ▸ .single (.leave c.books t hstand)
      | _ => exact hdone c.shared ▸ hstays hstand ▸ .refl
    | _ => exact hdone c.shared ▸ hstays hstand ▸ .refl
  next => exact .refl

theorem deals_foldl_kill (tasks : List TaskId) (c : Client) :
    Books.Deals c.books (tasks.foldl kill c).books := by
  induction tasks generalizing c with
  | nil => exact .refl
  | cons t tasks ih => exact (deals_kill c t).trans (ih _)

theorem DiscardStep.deals {p p' : DiscardPhase} (h : DiscardStep c p c' p') :
    Books.Deals c.books c'.books := by
  cases h with
  | close h =>
    obtain ⟨_, _, _, _, _, rfl, -⟩ := beginClose_eq_some h
    exact .refl
  | part tasks => exact .refl
  | abort tasks => exact deals_foldl_kill tasks c
  | fail => exact .single (.failAll c.books .connectionClosed)

/-- Every step of a task keeps the books. -/
theorem TaskStep.deals (h : TaskStep c t choice task c₁ task') (ht : c.tasks[t]? = some task) :
    Books.Deals c.books (books ⟨c₁.shared, c₁.tasks.set t task'⟩) := by
  have hlt := (List.getElem?_eq_some_iff.1 ht).1
  have hstand := stand_of_getElem? ht
  -- a task that stands outside before and after the step
  have outside (hd : task.isDiscard = false) (hdelivers : Delivers c c₁)
      (hbefore : task.stand = .out) (hafter : task'.stand = .out) :
      Books.Deals c.books (books ⟨c₁.shared, c₁.tasks.set t task'⟩) := by
    rw [books, books, stand_stepped (h.grows hd) hlt, hafter, ← hbefore, ← hstand,
      Function.update_eq_self]
    exact hdelivers.deals c.stand
  cases h with
  | opening f h => exact outside (by simp) h.delivers (by simp) (by simp)
  | closing f h => exact outside (by simp) h.delivers (by simp) (by simp)
  | calling f h user =>
    rw [books, books, stand_stepped (.of_eq h.tasks) hlt]
    rw [f.stand_next] at hstand ⊢
    exact h.deals hstand
  | starting f h => exact outside (by simp) h.delivers (by simp) (by simp)
  | disconnecting g h => exact outside rfl h.delivers rfl (by simp)
  | replying g response h => exact outside rfl h.delivers rfl (by simp)
  | connect h => exact outside rfl (by cases h <;> exact .nothing rfl rfl) rfl rfl
  | receive g h => exact outside rfl h.delivers rfl rfl
  | heart g h => cases h <;> exact outside rfl (.nothing rfl rfl) rfl rfl
  | reconnect epoch h => exact outside rfl (by cases h <;> exact .nothing rfl rfl) rfl rfl
  | @discard _ p p' h =>
    -- the task itself is not among those that an abort ends
    have hc₁ : c₁.stand t = .out := stand_of_getElem? (h.getElem? ht nofun)
    have hsame : books ⟨c₁.shared, c₁.tasks.set t (.discard p')⟩ = c₁.books := by
      have hlt₁ := (List.getElem?_eq_some_iff.1 (h.getElem? ht nofun)).1
      rw [books_set _ hlt₁]
      simp only [Task.stand, ← hc₁, Function.update_eq_self]
      rfl
    exact hsame ▸ h.deals

theorem apply_deals (h : c.apply m = some c') : Books.Deals c.books c'.books := by
  cases apply_cases h with
  | start request => rw [books_spawn c (by cases request <;> rfl)]
  | register method handler registry => exact .refl
  | cancel token => exact .refl
  | step ht hstep => exact hstep.deals ht

variable {ms ms' : List Move}

theorem follow_deals (h : c.follow ms = some c') : Books.Deals c.books c'.books :=
  follow_induct (P := fun _ c' => Books.Deals c.books c'.books) h .refl
    fun _ _ _ _ _ hdeals h => hdeals.trans (apply_deals h)

/-- A call or a probe that ends, or has ended, without an outcome. -/
def isUnanswered : Task → Bool
  | .call _ (.leaving _ none) => true
  | .call _ (.done none) => true
  | .heart _ (.probing (.leaving _ none)) => true
  | _ => false

theorem isUnanswered_of_isNew {x : Task} (h : x.isNew = true) : isUnanswered x = false := by
  unfold Task.isNew at h
  split at h <;> first | rfl | cases h

theorem isUnanswered_of_aborted {x : Task} (hserving : x.isServing = true)
    (hdone : x.isDone = true) :
    isUnanswered x = false := by
  cases x with
  | heart g p => cases p <;> first | rfl | cases hdone
  | receive g p => rfl
  | _ => cases hserving

/-- A call goes away without an outcome only if the user drops it there. -/
theorem CallStep.leaving_none {spec : CallSpec} {p : CallPhase} {n : Nat}
    (h : CallStep c t spec choice p c' (.phase (.leaving n none))) : choice = .dropped := by
  cases h with
  | dropSending id n h dropped => exact dropped
  | dropWaiting n dropped => exact dropped
  | look hp hp' => cases hp'

theorem CallStep.over_none {spec : CallSpec} {p : CallPhase}
    (h : CallStep c t spec choice p c' (.over none)) :
    choice = .dropped ∨ ∃ n, p = .leaving n none := by
  cases h with
  | turnedAway hp h => exact .inl (h rfl)
  | leave n outcome => exact .inr ⟨n, rfl⟩

theorem CallStep.not_phase_done {spec : CallSpec} {p : CallPhase} {outcome : Option Outcome} :
    ¬CallStep c t spec choice p c' (.phase (.done outcome)) := by
  intro h
  cases h with
  | look hp hp' => cases hp'

theorem TaskStep.unanswered (h : TaskStep c t choice task c₁ task')
    (hnone : isUnanswered task' = true) :
    (∃ spec p, task' = .call spec p) ∧ (choice = .dropped ∨ isUnanswered task = true) := by
  cases h with
  | @calling f _ p next h user =>
    cases f with
    | call spec =>
      refine ⟨by cases next <;> exact ⟨_, _, rfl⟩, ?_⟩
      rcases next with (_ | _ | _ | _ | _ | _ | _ | _ | ⟨n, _ | _⟩ | _) | _ | _
      case phase.leaving.none => exact .inl h.leaving_none
      case phase.done => exact absurd h CallStep.not_phase_done
      case over.none =>
        obtain hdropped | ⟨n, rfl⟩ := h.over_none
        · exact .inl hdropped
        · exact .inr rfl
      all_goals cases hnone
    | heart g =>
      have hkept : choice ≠ .dropped := fun hdropped => nomatch user hdropped
      rcases next with (_ | _ | _ | _ | _ | _ | _ | _ | ⟨n, _ | _⟩ | _) | _ | failure | _
      case phase.leaving.none => exact absurd h.leaving_none hkept
      case over.some.error => cases failure <;> cases hnone
      all_goals cases hnone
  | @opening f _ _ next h => cases f <;> rcases next with _ | ⟨_ | _⟩ <;> cases hnone
  | @closing f _ _ next h => cases f <;> cases next <;> cases hnone
  | @starting f _ _ next h => cases f <;> cases next <;> cases hnone
  | @disconnecting g _ _ next h => cases next <;> cases hnone
  | @replying g response _ _ next h => cases next <;> cases hnone
  | heart g h => cases h <;> cases hnone
  | _ => cases hnone

/-- Only a call of the user can end without an outcome, and only if the user drops it. -/
theorem dropped_of_isUnanswered (h : (fresh config).follow ms = some c)
    (ht : c.tasks[t]? = some task) (hnone : isUnanswered task = true) :
    (∃ spec p, task = .call spec p) ∧ .step t .dropped ∈ ms := by
  revert task t
  refine follow_induct (P := fun ms c => ∀ {t task}, c.tasks[t]? = some task →
    isUnanswered task = true → (∃ spec p, task = .call spec p) ∧ .step t .dropped ∈ ms) h nofun ?_
  intro ms m c₁ c₂ _ ih hm u x hu hnone
  cases origin_of_apply hm hu with
  | started request hm hx => cases request <;> cases hx <;> cases hnone
  | spawned hnew => cases (isUnanswered_of_isNew hnew.1).symm.trans hnone
  | stayed hm hu => exact (ih hu hnone).imp_right (List.mem_append_left [m])
  | stepped hm hu h =>
    obtain ⟨hcall, rfl | hbefore⟩ := h.unanswered hnone
    · exact ⟨hcall, by simp [hm]⟩
    · exact ⟨hcall, List.mem_append_left _ (ih hu hbefore).2⟩
  | aborted hserving hdone => cases (isUnanswered_of_aborted hserving hdone).symm.trans hnone

theorem kept_of_follow (h : (fresh config).follow ms = some c)
    (hfew : c.shared.issued < 2 ^ 64) : c.books.Kept :=
  (Books.Kept.blank.deals (follow_deals h) hfew).1

/-- However the moves of a client are interleaved, as long as fewer than `2 ^ 64 - 1` calls and
probes have taken an id: what is open belongs to one that has registered and not left; one that has
left leaves nothing open under its id, now or later; a call that is over keeps its outcome, and only
one that the user dropped has none; without anyone registered nothing is pending; and the slot of
one that is registered waits or is answered, so that none of them finds its slot closed. -/
theorem calls_leave_nothing_behind (h : (fresh config).follow ms = some c)
    (h' : c.follow ms' = some c') (hfew : c'.shared.issued < 2 ^ 64 - 1) :
    (∀ id n, (id, n) ∈ c'.shared.pending.entries → ∃ t r, c'.stand t = .holds n ∧
      c'.shared.pending.registrations[n]? = some r ∧ r.id = id) ∧
    (∀ t n r, c.stand t = .holds n → c.shared.pending.registrations[n]? = some r →
      c'.stand t ≠ .holds n → c'.shared.pending.find? r.id = none) ∧
    (∀ (t : TaskId) spec outcome, c.tasks[t]? = some (.call spec (.done outcome)) →
      c'.tasks[t]? = some (.call spec (.done outcome))) ∧
    (∀ (t : TaskId) task, c'.tasks[t]? = some task → isUnanswered task = true →
      (∃ spec p, task = .call spec p) ∧ .step t .dropped ∈ ms ++ ms') ∧
    ((∀ t n, c'.stand t ≠ .holds n) → c'.shared.pending.size = 0) ∧
    (∀ t n, c'.stand t = .holds n → c'.shared.pending.slot? n = some .waiting ∨
      ∃ outcome, c'.shared.pending.slot? n = some (.answered outcome)) := by
  have hdeals := follow_deals h'
  have hkept := kept_of_follow h (Nat.lt_of_le_of_lt hdeals.issued_le (Nat.lt_of_lt_pred hfew))
  obtain ⟨hkept', hcontinues⟩ := hkept.deals hdeals (Nat.lt_of_lt_pred hfew)
  have hwhole : (fresh config).follow (ms ++ ms') = some c' := by
    rw [follow_append, h, Option.bind_some, h']
  refine ⟨fun id n he => ?_, fun t n r ht hr hleft => ?_, fun t spec outcome ht => ?_,
    fun t task ht hnone => dropped_of_isUnanswered hwhole ht hnone, hkept'.size_eq_zero,
    hkept'.live⟩
  · obtain ⟨hface, t, ht⟩ := hkept'.exists_owner (hkept'.sound.find?_eq_some_iff.2 he)
    obtain ⟨r, hr, hid⟩ := Option.map_eq_some_iff.1 hface
    exact ⟨t, r, ht, hr, congrArg Prod.fst hid⟩
  · have hface : c.shared.pending.face? n = some (r.id, r.guarded) := by
      simp [PendingTable.face?, hr]
    exact hkept.find?_of_left hkept' hcontinues ht hface hleft
  · exact follow_induct (P := fun _ c' => c'.tasks[t]? = some (.call spec (.done outcome))) h' ht
      fun _ _ _ _ _ ht hm => getElem?_of_isDone hm ht rfl

/-- The answer comes, and the call takes it and leaves. -/
def answer : List Move :=
  [.step 1 (.frame (.text "\x7b\"id\":\"c1\",\"result\":\x7b\x7d\x7d")), .step 3 .settled,
    .step 3 .run]

/-- How a call that is over has ended. -/
def callEnd? (c : Client) (t : TaskId) : Option (Option Outcome) :=
  match c.tasks[t]? with
  | some (.call _ (.done outcome)) => some outcome
  | _ => none

theorem done_of_callEnd? {outcome : Option Outcome} (h : c.callEnd? t = some outcome) :
    ∃ spec, c.tasks[t]? = some (.call spec (.done outcome)) := by
  unfold callEnd? at h
  split at h
  next spec outcome' ht =>
    cases h
    exact ⟨spec, ht⟩
  next => cases h

theorem calls_leave_nothing_behind_answered :
    ∃ c c', (fresh .standard).follow (connecting 0 ++ calling 3) = some c ∧
    c.follow answer = some c' ∧ c'.shared.issued < 2 ^ 64 - 1 ∧
    (c.stand 3 = .holds 0 ∧ c.shared.pending.find? "c1" = some 0) ∧
    (∃ spec, c'.tasks[3]? = some (.call spec (.done (some (.ok .empty))))) ∧
    c'.shared.pending.find? "c1" = none ∧ c'.shared.pending.size = 0 := by
  have hrun : ((fresh .standard).follow (connecting 0 ++ calling 3)).any (fun c =>
      (c.follow answer).any fun c' =>
      c'.shared.issued < 2 ^ 64 - 1 ∧ (c.stand 3 = .holds 0 ∧
        c.shared.pending.find? "c1" = some 0 ∧
        (c.shared.pending.registrations[0]?).any (·.id = "c1")) ∧
      c'.callEnd? 3 = some (some (.ok .empty)) ∧
      (c'.tasks.map Task.stand).all (· = .out)) = true := by
    decide +kernel
  obtain ⟨c, hc, hrun⟩ := Option.any_eq_true _ _ |>.1 hrun
  obtain ⟨c', hc', hfacts⟩ := Option.any_eq_true _ _ |>.1 hrun
  obtain ⟨hfew, ⟨hstand, hfind, hid⟩, hdone, hout⟩ := of_decide_eq_true hfacts
  obtain ⟨r, hr, hid⟩ := Option.any_eq_true _ _ |>.1 hid
  have hnobody (t n) : c'.stand t ≠ .holds n := by
    unfold stand
    cases ht : c'.tasks[t]? with
    | none => exact nofun
    | some task =>
      have hmem : task.stand ∈ c'.tasks.map Task.stand :=
        List.mem_map.2 ⟨task, List.mem_of_getElem? ht, rfl⟩
      have := of_decide_eq_true (List.all_eq_true.1 hout _ hmem)
      simp [this]
  obtain ⟨-, hgone, -, -, hzero, -⟩ := calls_leave_nothing_behind hc hc' hfew
  exact ⟨c, c', hc, hc', hfew, ⟨hstand, hfind⟩, done_of_callEnd? hdone,
    of_decide_eq_true hid ▸ hgone 3 0 r hstand hr (hnobody 3 0), hzero hnobody⟩

end Client
end DuplexRpc
