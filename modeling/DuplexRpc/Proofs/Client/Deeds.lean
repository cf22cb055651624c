import DuplexRpc.Proofs.Client.Bookkeeping
import DuplexRpc.Proofs.Client.Histories
import DuplexRpc.Proofs.Client.Replies

/-!
What a call does. It takes an id, enters the table under it and writes its request, each at most
once and in this order. A probe is a call too, and one heart makes many of them.
-/
namespace DuplexRpc

/-- What a call does that shows outside of it. -/
inductive Deed where
  /-- a heart begins the next probe -/
  | began
  | took (id : String)
  | entered (id : String)
  | wrote (content : Content)
  deriving DecidableEq, Repr

namespace Deed

/-- One more deed of the call that is going on. -/
def note (deeds : List Deed) : Deed → List Deed
  | began => []
  | d => deeds ++ [d]

/-- The deeds since the last call began. -/
def lastCall (deeds : List Deed) : List Deed := deeds.foldl note []

/-- All that a call can do. -/
def all (request : String → Request) (id : String) : List Deed :=
  [.took id, .entered id, .wrote (.text (request id).wire)]

theorem lastCall_append (deeds deeds' : List Deed) :
    lastCall (deeds ++ deeds') = deeds'.foldl note (lastCall deeds) :=
  List.foldl_append

theorem foldl_note {deeds : List Deed} (h : .began ∉ deeds) (before : List Deed) :
    deeds.foldl note before = before ++ deeds := by
  induction deeds generalizing before with
  | nil => exact (List.append_nil _).symm
  | cons d deeds ih =>
    obtain ⟨hd, hdeeds⟩ := not_or.1 (mt List.mem_cons.2 h)
    have hnote : note before d = before ++ [d] := by
      cases d <;> first | rfl | exact absurd rfl hd
    rw [List.foldl_cons, hnote, ih hdeeds, List.append_assoc, List.singleton_append]

end Deed

/-- The id that an activity takes when it comes to stand elsewhere. -/
def Stand.taken : Stand → Stand → List String
  | out, ticket id => [id]
  | _, _ => []

@[simp] theorem Stand.taken_out (s : Stand) : s.taken .out = [] := by
  cases s <;> rfl

namespace PendingTable

/-- The ids under which a table has come to have entries. -/
def entered (t t' : PendingTable) : List String :=
  (t'.entries.filter (· ∉ t.entries)).map (·.1)

variable {t t' : PendingTable} {id : String} {n : Nat}

theorem entered_eq_nil (h : t'.entries ⊆ t.entries) : entered t t' = [] := by
  unfold entered
  rw [List.map_eq_nil_iff, List.filter_eq_nil_iff]
  intro e he
  simpa using h he

theorem entered_self (t : PendingTable) : entered t t = [] := entered_eq_nil (List.Subset.refl _)

theorem entered_register (h : t.register id = .ok (n, t')) : entered t t' = [id] := by
  unfold register at h
  split at h
  · cases h
  next hnew =>
    cases h
    have hself : (id, t.registrations.length) ∉ t.entries := by
      intro hmem
      exact hnew (List.any_eq_true.2 ⟨_, hmem, beq_self_eq_true id⟩)
    have hrest : t.entries.filter (· ∉ t.entries) = [] := by
      rw [List.filter_eq_nil_iff]
      intro e he
      simpa using he
    simp only [entered, List.filter_cons, hself, not_false_eq_true, decide_true, if_true, hrest,
      List.map_cons, List.map_nil]

theorem entries_close_subset (t : PendingTable) (id : String) (f : Slot → Slot) :
    (t.close id f).2.entries ⊆ t.entries :=
  fun _ he => (mem_entries_close.1 he).1

theorem entries_dropGuard_subset (t : PendingTable) (n : Nat) :
    (t.dropGuard n).entries ⊆ t.entries := by
  obtain h | ⟨id, h, -⟩ := dropGuard_cases t n
  · rw [h]
    exact List.Subset.refl _
  · rw [h]
    exact entries_close_subset t id _

end PendingTable

/-- What has been done by a phase of a call. -/
def CallPhase.Did (request : String → Request) (log : List Deed) : CallPhase → Prop
  | register id => log = [.took id]
  | sending id _ _ => log = [.took id, .entered id]
  | awaitAnswer _ => ∃ id, log = Deed.all request id
  | leaving _ _ => ∃ id, log = [.took id, .entered id] ∨ log = Deed.all request id
  | done _ => ∃ id, log <+: Deed.all request id
  | _ => log = []

/-- The phase of a call after a step. -/
def Next.after : Next CallPhase (Option Outcome) → CallPhase
  | .phase p => p
  | .over outcome => .done outcome

/-- The request that a call sends under an id. -/
def CallSpec.request (spec : CallSpec) (id : String) : Request :=
  .make (some id) spec.method spec.params

/-- The request that a probe sends under an id. -/
def heartbeatRequest (id : String) : Request := .make (some id) Protocol.heartbeatMethod .empty

def Task.isBeginning : Task → Bool
  | heart _ (.probing .start) => true
  | _ => false

/-- What has been done by the call of a task, or by the last one of a heart. -/
def Task.Did (log : List Deed) : Task → Prop
  | call spec p => p.Did spec.request log
  | heart _ (.probing p) => p.Did heartbeatRequest (Deed.lastCall log)
  | heart _ _ => ∃ id, Deed.lastCall log <+: Deed.all heartbeatRequest id
  | _ => True

variable {request : String → Request} {log : List Deed}

theorem CallPhase.Did.isPrefix {p : CallPhase} (h : p.Did request log) :
    ∃ id, log <+: Deed.all request id := by
  have hnil (h : log = []) : ∃ id, log <+: Deed.all request id := ⟨"", h ▸ List.nil_prefix⟩
  cases p with
  | register id => exact ⟨id, h ▸ ⟨[_, _], rfl⟩⟩
  | sending id n p => exact ⟨id, h ▸ ⟨[_], rfl⟩⟩
  | awaitAnswer n =>
    obtain ⟨id, h⟩ := h
    exact ⟨id, h ▸ List.prefix_refl _⟩
  | leaving n outcome =>
    obtain ⟨id, h | h⟩ := h
    · exact ⟨id, h ▸ ⟨[_], rfl⟩⟩
    · exact ⟨id, h ▸ List.prefix_refl _⟩
  | done outcome => exact h
  | _ => exact hnil h

theorem CallPhase.did_of_isOutside {p : CallPhase} (hp : p.isOutside = true) :
    p.Did request log ↔ log = [] := by
  cases p <;> first | exact .rfl | cases hp

namespace Client

variable {config : Config} {c c' c₁ : Client} {t u : TaskId} {choice : Choice} {m : Move}
  {ms : List Move} {task task' x : Task}

/-- What a step shows of the stand, the table and the texts. -/
def shown (s s' : Shared) (x x' : Stand) : List Deed :=
  (x.taken x').map .took ++ (s.pending.entered s'.pending).map .entered ++
    (s'.sent.drop s.sent.length).map (.wrote ·.content)

/-- The deeds of the calls of a task in one move. -/
def deeds (t : TaskId) (c : Client) (m : Move) (c' : Client) : List Deed :=
  match m with
  | .step u _ =>
    if u = t then
      (if (c'.tasks[t]?).any Task.isBeginning then [.began] else []) ++
        shown c.shared c'.shared (c.stand t) (c'.stand t)
    else []
  | _ => []

theorem deeds_of_ne (h : ∀ choice, m ≠ .step t choice) : deeds t c m c' = [] := by
  unfold deeds
  split
  next u choice =>
    split
    next heq => exact absurd (heq ▸ rfl) (h choice)
    next => rfl
  next => rfl

theorem shown_nothing {s s' : Shared} {x x' : Stand} (htaken : x.taken x' = [])
    (hpending : s'.pending.entries ⊆ s.pending.entries) (hsent : s'.sent = s.sent) :
    shown s s' x x' = [] := by
  simp only [shown, htaken, PendingTable.entered_eq_nil hpending, hsent, List.drop_length,
    List.map_nil, List.append_nil]

theorem shown_no_beginning (s s' : Shared) (x x' : Stand) : .began ∉ shown s s' x x' := by
  simp only [shown, List.mem_append, List.mem_map, reduceCtorEq, and_false, exists_false, or_self,
    not_false_eq_true]

theorem shown_register {id : String} {n : Nat} {pending : PendingTable}
    (h : c.shared.pending.register id = .ok (n, pending)) :
    shown c.shared { c.shared with pending } (.ticket id) (.holds n) = [.entered id] := by
  simp only [shown, PendingTable.entered_register h, List.drop_length]
  rfl

theorem CallStep.did {spec : CallSpec} {p : CallPhase} {next : Next CallPhase (Option Outcome)}
    (h : CallStep c t spec choice p c₁ next) (hp : p.Did spec.request log) :
    next.after.Did spec.request
      (log ++ shown c.shared c₁.shared p.stand next.after.stand) := by
  -- a step that shows nothing
  have hquiet {s : Shared} {x : Stand} (htaken : p.stand.taken x = [])
      (hpending : s.pending.entries ⊆ c.shared.pending.entries) (hsent : s.sent = c.shared.sent) :
      log ++ shown c.shared s p.stand x = log := by
    rw [shown_nothing htaken hpending hsent, List.append_nil]
  have hsame {l : List (String × Nat)} : l ⊆ l := List.Subset.refl _
  cases h with
  | look hout hout' =>
    refine (CallPhase.did_of_isOutside hout').2 ?_
    simp only [Next.after, stand_of_isOutside hout']
    exact (hquiet (Stand.taken_out _) hsame rfl).trans ((CallPhase.did_of_isOutside hout).1 hp)
  | turnedAway hout =>
    have hlog := (CallPhase.did_of_isOutside hout).1 hp
    exact ⟨"", (hquiet (Stand.taken_out _) hsame rfl).trans hlog ▸ List.nil_prefix⟩
  | enter hout =>
    exact (hquiet (Stand.taken_out _) hsame rfl).trans ((CallPhase.did_of_isOutside hout).1 hp)
  | allocate =>
    obtain rfl := hp
    simp only [shown, PendingTable.entered_self, update, List.drop_length]
    rfl
  | register h =>
    obtain rfl := hp
    exact congrArg _ (shown_register h)
  | refuse id failure =>
    obtain rfl := hp
    exact ⟨id, (hquiet rfl hsame rfl).symm ▸ ⟨[_, _], rfl⟩⟩
  | send id n h =>
    obtain rfl := hp
    cases h <;> exact hquiet rfl hsame rfl
  | sent id n h =>
    obtain rfl := hp
    cases h with
    | written g =>
      refine ⟨id, congrArg _ ?_⟩
      simp only [shown, PendingTable.entered_self, update, logSent, Shared.release,
        List.drop_left]
      rfl
  | unsent id n h =>
    obtain rfl := hp
    exact ⟨id, .inl (by cases h <;> exact hquiet rfl hsame rfl)⟩
  | dropSending id n h dropped => exact ⟨id, .inl ((hquiet rfl hsame rfl).trans hp)⟩
  | answered | forgotten | late | cancelled | dropWaiting =>
    obtain ⟨id, hp⟩ := hp
    exact ⟨id, .inr ((hquiet rfl hsame rfl).trans hp)⟩
  | leave n outcome =>
    have hleave : (c.leave n).shared.pending.entries ⊆ c.shared.pending.entries :=
      PendingTable.entries_dropGuard_subset _ n
    obtain ⟨id, hprefix⟩ := CallPhase.Did.isPrefix hp
    exact ⟨id, (hquiet (Stand.taken_out _) hleave rfl).symm ▸ hprefix⟩

theorem stand_after (f : CallFrame) (next : Next CallPhase (Option Outcome)) :
    (f.next next).stand = next.after.stand := by
  rw [f.stand_next]
  cases next <;> rfl

/-- What a heart does after a step of its probe. -/
theorem did_heart {g : Generation} {next : Next CallPhase (Option Outcome)}
    (h : next.after.Did heartbeatRequest (Deed.lastCall log)) :
    ((CallFrame.heart g).next next).Did log := by
  rcases next with p | ⟨_ | failure | value⟩
  case over.some.error => cases failure <;> exact h
  all_goals exact h

theorem isBeginning_heart {g : Generation} {next : Next CallPhase (Option Outcome)}
    (h : ((CallFrame.heart g).next next).isBeginning = true) : next = .phase .start := by
  rcases next with p | ⟨_ | failure | value⟩
  case phase => cases p <;> first | rfl | cases h
  case over.some.error => cases failure <;> cases h
  all_goals cases h

theorem TaskStep.did (h : TaskStep c t choice task c₁ task') (hp : task.Did log) :
    task'.Did (log ++ ((if task'.isBeginning then [.began] else []) ++
      shown c.shared c₁.shared task.stand task'.stand)) := by
  cases h with
  | @calling f _ p next h =>
    rw [stand_after, stand_after]
    cases f with
    | call spec =>
      have hdid := h.did hp
      cases next <;> exact hdid
    | heart g =>
      have hdid : next.after.Did heartbeatRequest (Deed.lastCall log ++
          shown c.shared c₁.shared p.stand next.after.stand) := h.did hp
      apply did_heart
      rw [Deed.lastCall_append, List.foldl_append, Deed.foldl_note (shown_no_beginning _ _ _ _)]
      split
      next hbeginning =>
        obtain rfl := isBeginning_heart hbeginning
        exact (List.append_eq_nil_iff.1 hdid).2
      next => exact hdid
  | heart g h =>
    have hquiet {s : Shared} (hpending : s.pending = c.shared.pending)
        (hsent : s.sent = c.shared.sent) : shown c.shared s .out .out = [] :=
      shown_nothing rfl (hpending ▸ List.Subset.refl _) hsent
    cases h with
    | probe =>
      change Deed.lastCall (log ++ ([.began] ++ shown c.shared c.shared .out .out)) = []
      rw [hquiet rfl rfl, Deed.lastCall_append]
      rfl
    | raise =>
      change ∃ id, Deed.lastCall (log ++
        ([] ++ shown c.shared (c.shared.cancel (.generation g)) .out .out)) <+: _
      rw [hquiet (s := c.shared.cancel (.generation g)) rfl rfl, List.append_nil, List.append_nil]
      exact hp
    | _ =>
      change ∃ id, Deed.lastCall (log ++ ([] ++ shown c.shared c.shared .out .out)) <+: _
      rw [hquiet rfl rfl, List.append_nil, List.append_nil]
      exact hp
  | @opening f _ _ next h => cases f <;> rcases next with _ | ⟨_ | _⟩ <;> trivial
  | @closing f _ _ next h => cases f <;> cases next <;> trivial
  | @starting f _ _ next h => cases f <;> cases next <;> trivial
  | @disconnecting g _ _ next h => cases next <;> trivial
  | @replying g response _ _ next h => cases next <;> trivial
  | _ => trivial

theorem Task.Did.aborted {x' : Task} (h : x.Did log) (hkind : x'.kind = x.kind)
    (hserving : x'.isServing = true) (hdone : x'.isDone = true) : x'.Did log := by
  cases x' with
  | heart g p =>
    cases p with
    | done =>
      cases x with
      | heart g' p' =>
        cases p' with
        | probing q => exact CallPhase.Did.isPrefix h
        | _ => exact h
      | _ => cases hkind
    | _ => cases hdone
  | receive g p => trivial
  | _ => cases hserving

/-- What the task has done by now is what it has done by its phase. -/
def Accounts (c₀ : Client) (ms : List Move) (c : Client) : Prop :=
  ∀ t, (c.tasks[t]?).elim (noted (deeds t) c₀ ms = []) (Task.Did (noted (deeds t) c₀ ms))

theorem did_of_isNew (h : x.isNew = true) : x.Did [] := by
  unfold Task.isNew at h
  split at h
  · trivial
  · exact ⟨"", List.nil_prefix⟩
  · trivial
  · cases h

theorem did_of_request (request : Request) : request.task.Did [] := by
  cases request <;> trivial

theorem Accounts.concat {c₀ : Client} (h : Accounts c₀ ms c) (hms : c₀.follow ms = some c)
    (hm : c.apply m = some c') : Accounts c₀ (ms ++ [m]) c' := by
  intro t
  have hbefore := h t
  have hlog : noted (deeds t) c₀ (ms ++ [m]) = noted (deeds t) c₀ ms ++ deeds t c m c' :=
    noted_concat hms hm
  have hother (hne : ∀ choice, m ≠ .step t choice) :
      noted (deeds t) c₀ (ms ++ [m]) = noted (deeds t) c₀ ms := by
    rw [hlog, deeds_of_ne hne, List.append_nil]
  have hbecomes := becomes_of_apply hm t
  generalize hx : c.tasks[t]? = x at hbefore hbecomes
  generalize hx' : c'.tasks[t]? = x' at hbecomes
  cases hbecomes with
  | kept x hne => exact (hother hne).symm ▸ hbefore
  | started request heq =>
    have hnil : noted (deeds t) c₀ ms = [] := hbefore
    rw [Option.elim_some, hother (heq ▸ nofun), hnil]
    exact did_of_request request
  | spawned hne hnew =>
    have hnil : noted (deeds t) c₀ ms = [] := hbefore
    rw [Option.elim_some, hother hne, hnil]
    exact did_of_isNew hnew.1
  | @stepped choice task task' c₁ heq hstep hshared =>
    have hdid : task'.Did (noted (deeds t) c₀ ms ++ _) := hstep.did hbefore
    have hdeeds : deeds t c m c' = (if task'.isBeginning then [.began] else []) ++
        shown c.shared c₁.shared task.stand task'.stand := by
      subst heq
      simp only [deeds, if_true, hx', Option.any_some, hshared, stand_of_getElem? hx,
        stand_of_getElem? hx']
    rw [Option.elim_some, hlog, hdeeds]
    exact hdid
  | aborted hne hkind hserving hdone =>
    rw [Option.elim_some, hother hne]
    exact Task.Did.aborted hbefore hkind hserving hdone

theorem accounts_of_follow (h : (fresh config).follow ms = some c) :
    Accounts (fresh config) ms c :=
  follow_induct (P := Accounts (fresh config)) h (fun _ => rfl)
    fun _ _ _ _ hms h hm => h.concat hms hm

end Client
end DuplexRpc
