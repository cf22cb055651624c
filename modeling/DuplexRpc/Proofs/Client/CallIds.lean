import DuplexRpc.Proofs.Client.Admission
import Mathlib.Data.List.Nodup

/-!
The ids of calls. They are counted over the whole life of a client, so no call finds its id taken;
and a call that is turned away takes none.
-/
namespace DuplexRpc.Client

variable {config : Config} {c c' c₁ : Client} {t u : TaskId} {choice : Choice} {m : Move}
  {ms ms' : List Move} {task task' x : Task}

/-- The id that a call takes in a move. -/
def takes (c : Client) (m : Move) (c' : Client) : List String :=
  match m with
  | .step t _ => (c.stand t).taken (c'.stand t)
  | _ => []

/-- The ids that the calls and probes of a run take, in their order. -/
def takings : Client → List Move → List String := noted takes

/-- A step takes no id, or the next one. -/
def Issues (s s' : Shared) (taken : List String) : Prop :=
  (s'.issued = s.issued ∧ taken = []) ∨
    (s'.issued = s.issued + 1 ∧ taken = [Shared.callId (s.issued + 1)])

theorem CallStep.issues {spec : CallSpec} {p : CallPhase} {next : Next CallPhase (Option Outcome)}
    (h : CallStep c t spec choice p c₁ next) :
    Issues c.shared c₁.shared (p.stand.taken next.after.stand) := by
  cases h with
  | look hp hp' =>
    simp only [Next.after, stand_of_isOutside hp']
    exact .inl ⟨rfl, Stand.taken_out _⟩
  | turnedAway | enter | leave => exact .inl ⟨rfl, Stand.taken_out _⟩
  | allocate => exact .inr ⟨rfl, rfl⟩
  | send id n h | sent id n h | unsent id n h => cases h <;> exact .inl ⟨rfl, rfl⟩
  | _ => exact .inl ⟨rfl, rfl⟩

theorem Delivers.issued_eq (h : Delivers c c') : c'.shared.issued = c.shared.issued := by
  cases h with
  | nothing hissued | resolve _ _ hissued | failAll _ hissued => exact hissued

theorem TaskStep.issues (h : TaskStep c t choice task c₁ task') :
    Issues c.shared c₁.shared (task.stand.taken task'.stand) := by
  -- whoever is no call takes no id
  have houtside (hissued : c₁.shared.issued = c.shared.issued) (hstand : task'.stand = .out) :
      Issues c.shared c₁.shared (task.stand.taken task'.stand) :=
    .inl ⟨hissued, hstand ▸ Stand.taken_out _⟩
  cases h with
  | opening f h => exact houtside h.delivers.issued_eq (by simp)
  | closing f h => exact houtside h.delivers.issued_eq (by simp)
  | calling f h =>
    rw [stand_after, stand_after]
    exact h.issues
  | starting f h => exact houtside h.delivers.issued_eq (by simp)
  | disconnecting g h => exact houtside h.delivers.issued_eq (by simp)
  | replying g response h => exact houtside h.delivers.issued_eq (by simp)
  | connect h => exact houtside (by cases h <;> rfl) rfl
  | receive g h => exact houtside h.delivers.issued_eq rfl
  | heart g h => exact houtside (by cases h <;> rfl) (by cases h <;> rfl)
  | reconnect epoch h => exact houtside (by cases h <;> rfl) rfl
  | discard h => exact houtside (congrArg Lasting.issued h.lasting_eq) rfl

theorem issues_of_apply (h : c.apply m = some c') : Issues c.shared c'.shared (takes c m c') := by
  cases apply_cases h with
  | start request => exact .inl ⟨rfl, rfl⟩
  | register method handler registry => exact .inl ⟨rfl, rfl⟩
  | cancel token => exact .inl ⟨rfl, rfl⟩
  | @step t choice task task' c₁ ht hstep =>
    have hafter : stand ⟨c₁.shared, c₁.tasks.set t task'⟩ t = task'.stand :=
      stand_of_getElem? (hstep.getElem?_set_self ht)
    simp only [takes, hafter, stand_of_getElem? ht]
    exact hstep.issues

theorem takings_of_follow (h : (fresh config).follow ms = some c) :
    (fresh config).takings ms =
      (List.range c.shared.issued).map fun k => Shared.callId (k + 1) := by
  refine follow_induct (P := fun ms c => (fresh config).takings ms =
    (List.range c.shared.issued).map fun k => Shared.callId (k + 1)) h rfl ?_
  intro ms m c₁ c₂ hms ih hm
  rw [takings, noted_concat hms hm, ← takings, ih]
  obtain ⟨hissued, htaken⟩ | ⟨hissued, htaken⟩ := issues_of_apply hm
  · rw [htaken, hissued, List.append_nil]
  · rw [htaken, hissued, List.range_succ, List.map_append]
    rfl

/-- The ids that are taken are `c1`, `c2`, `c3` and so on. -/
theorem takings_eq (h : (fresh config).follow ms = some c) (hfew : c.shared.issued < 2 ^ 64 - 1) :
    (fresh config).takings ms =
      (List.range c.shared.issued).map fun k => "c" ++ toString (k + 1) := by
  rw [takings_of_follow h]
  refine List.map_congr_left fun k hk => ?_
  have hlt : k + 1 < 2 ^ 64 := by
    have := List.mem_range.1 hk
    omega
  rw [Shared.callId, UInt64.toNat_ofNat_of_lt' hlt]
  rfl

theorem takings_nodup (h : (fresh config).follow ms = some c)
    (hfew : c.shared.issued < 2 ^ 64 - 1) : ((fresh config).takings ms).Nodup := by
  rw [takings_of_follow h]
  refine List.Nodup.map_on (fun k hk l hl heq => ?_) List.nodup_range
  have hklt := List.mem_range.1 hk
  have hllt := List.mem_range.1 hl
  exact Nat.succ.inj (Shared.callId_injective (by omega) (by omega) heq)

theorem register_ok {id : String} (hkept : c.books.Kept) (ht : c.stand t = .ticket id) :
    ∃ n pending, c.shared.pending.register id = .ok (n, pending) := by
  cases hr : c.shared.pending.register id with
  | ok r => exact ⟨r.1, r.2, rfl⟩
  | error failure =>
    obtain ⟨hcontains, -⟩ := PendingTable.register_eq_error_iff.1 hr
    rw [PendingTable.contains_eq_isSome] at hcontains
    obtain ⟨n, hn⟩ := Option.isSome_iff_exists.1 hcontains
    obtain ⟨r, hr, hid, -⟩ := hkept.sound.openAs hn
    have hface : c.books.pending.face? n = some (id, r.guarded) := by
      rw [PendingTable.face?, hr, Option.map_some, hid]
    exact absurd hface (hkept.ticketFresh t id ht n _)

/-- The outcome is not one of the failures without a kind, of which a table that finds an id taken
has one. -/
def IsPlain (outcome : Outcome) : Prop := ∀ message, outcome ≠ .error (.other message)

/-- No slot of the table holds such a failure. -/
def AnswersPlainly (pending : PendingTable) : Prop :=
  ∀ n outcome, pending.slot? n = some (.answered outcome) → IsPlain outcome

theorem isPlain_outcome (r : Response) : IsPlain r.outcome := by
  intro message
  unfold Response.outcome
  split <;> exact nofun

theorem AnswersPlainly.close {pending : PendingTable} (h : AnswersPlainly pending) (id : String)
    {f : Slot → Slot}
    (hf : ∀ slot outcome, f slot = .answered outcome → slot = .answered outcome ∨ IsPlain outcome) :
    AnswersPlainly (pending.close id f).2 := by
  intro n outcome hslot
  rw [PendingTable.slot?_close] at hslot
  split at hslot
  · obtain ⟨slot, hbefore, hslot⟩ := Option.map_eq_some_iff.1 hslot
    obtain rfl | hplain := hf slot outcome hslot
    · exact h n outcome hbefore
    · exact hplain
  · exact h n outcome hslot

theorem AnswersPlainly.settle {pending : PendingTable} (h : AnswersPlainly pending)
    (r : Response) : AnswersPlainly (r.settle pending) := by
  unfold Response.settle
  split
  next id _ =>
    refine h.close id fun slot outcome hslot => ?_
    cases slot with
    | waiting =>
      cases hslot
      exact .inr (isPlain_outcome r)
    | _ => exact .inl hslot
  next => exact h

theorem AnswersPlainly.failAll {pending : PendingTable} (h : AnswersPlainly pending) :
    AnswersPlainly (pending.failAll .connectionClosed).2 := by
  intro n outcome hslot
  rw [PendingTable.slot?_failAll] at hslot
  split at hslot
  · obtain ⟨slot, hbefore, hslot⟩ := Option.map_eq_some_iff.1 hslot
    cases slot with
    | waiting =>
      cases hslot
      exact nofun
    | _ => exact h n outcome (hslot ▸ hbefore)
  · exact h n outcome hslot

theorem AnswersPlainly.register {pending pending' : PendingTable} {id : String} {n : Nat}
    (h : AnswersPlainly pending) (hr : pending.register id = .ok (n, pending')) :
    AnswersPlainly pending' := by
  intro k outcome hslot
  rw [PendingTable.slot?_register hr] at hslot
  split at hslot
  · cases hslot
  · exact h k outcome hslot

theorem AnswersPlainly.leave {pending : PendingTable} (h : AnswersPlainly pending) (n : Nat) :
    AnswersPlainly ((pending.dropReceiver n).dropGuard n) := by
  have hreceiver : AnswersPlainly (pending.dropReceiver n) := by
    intro k outcome hslot
    rw [PendingTable.dropReceiver, PendingTable.slot?_updateSlot] at hslot
    split at hslot
    · obtain ⟨slot, -, hslot⟩ := Option.map_eq_some_iff.1 hslot
      cases hslot
    · exact h k outcome hslot
  obtain heq | ⟨id, -, -, heq⟩ := PendingTable.dropGuard_cases (pending.dropReceiver n) n
  · rw [heq]
    exact hreceiver
  · intro k outcome hslot
    rw [heq] at hslot
    refine hreceiver.close id (fun slot outcome hslot => ?_) k outcome hslot
    cases slot <;> first | exact .inl hslot | cases hslot

theorem TaskStep.answersPlainly (h : TaskStep c t choice task c₁ task')
    (hc : AnswersPlainly c.shared.pending) : AnswersPlainly c₁.shared.pending := by
  cases h with
  | opening f h =>
    cases h with
    | failRetired => exact hc.failAll
    | _ => exact hc
  | closing f h =>
    cases h with
    | fail => exact hc.failAll
    | _ => exact hc
  | calling f h =>
    cases h with
    | register h => exact hc.register h
    | send id n h | sent id n h | unsent id n h => cases h <;> exact hc
    | leave n outcome => exact hc.leave n
    | _ => exact hc
  | starting f h => cases h <;> exact hc
  | disconnecting g h =>
    cases h with
    | failClosed | fail => exact hc.failAll
    | _ => exact hc
  | replying g response h => cases h <;> exact hc
  | connect h => cases h <;> exact hc
  | receive g h =>
    cases h with
    | settle r => exact hc.settle r
    | _ => exact hc
  | heart g h => cases h <;> exact hc
  | reconnect epoch h => cases h <;> exact hc
  | discard h =>
    cases h with
    | close h =>
      obtain ⟨_, _, _, _, _, rfl, -⟩ := beginClose_eq_some h
      exact hc
    | abort tasks =>
      exact foldl_kill_induct (P := fun s => AnswersPlainly s.pending) (fun _ _ h => h)
        (fun _ _ h => h.leave _) tasks hc
    | fail => exact hc.failAll
    | _ => exact hc

theorem Reachable.answersPlainly (run : Reachable config c) :
    AnswersPlainly c.shared.pending := by
  induction run with
  | fresh => exact nofun
  | move m before h ih =>
    cases apply_cases h with
    | step _ hstep => exact hstep.answersPlainly ih
    | _ => exact ih

/-- The call has not come to such a failure. -/
def goesPlainly : CallPhase → Prop
  | .leaving _ outcome | .done outcome => ∀ o, outcome = some o → IsPlain o
  | _ => True

theorem callStep_goesPlainly {spec : CallSpec} {p : CallPhase}
    {next : Next CallPhase (Option Outcome)}
    (h : c.callStep t spec choice p = some (c₁, next)) (hp : goesPlainly p)
    (hc : AnswersPlainly c.shared.pending)
    (hregister : ∀ id failure, p = .register id → c.shared.pending.register id ≠ .error failure) :
    goesPlainly next.after := by
  have hfailure {failure : Failure} (hplain : ∀ message, failure ≠ .other message) :
      ∀ o, some (Except.error failure) = some o → IsPlain o := by
    rintro o ⟨⟩ message heq
    exact hplain message (Except.error.inj heq)
  have hadmit {next : Next CallPhase (Option Outcome)}
      (hnext : admission c.shared.status = some next) : goesPlainly next.after := by
    obtain ⟨-, rfl⟩ | ⟨-, rfl⟩ := admission_eq_some_iff.1 hnext
    · trivial
    · exact hfailure (by simp)
  revert h
  fun_cases callStep c t spec choice p
  all_goals intro h
  -- the status decides at once, or after the wait for an open link
  case case7 =>
    cases h
    cases hadmission : admission c.shared.status with
    | none => trivial
    | some next => exact hadmit hadmission
  case case9 =>
    obtain ⟨next, hadmission, h⟩ := Option.map_eq_some_iff.1 h
    cases h
    exact hadmit hadmission
  -- the table refuses the id
  case case19 id failure hr => exact absurd hr (hregister id failure rfl)
  -- the request is on its way out
  case case23 id n p hdropped =>
    obtain ⟨⟨c₂, next⟩, hsend, h⟩ := Option.map_eq_some_iff.1 h
    have hcase := sendStep_cases hsend
    rcases next with p' | ⟨failure | _⟩ <;> cases h
    · trivial
    · cases hcase <;> exact hfailure (by simp)
    · trivial
  all_goals cases h
  -- the answer is in the slot
  case case24 hslot =>
    rintro o ⟨⟩
    exact hc _ _ hslot
  case case33 => exact hp
  all_goals first
    | trivial
    | exact hfailure fun _ heq => by cases heq
    | rintro o ⟨⟩

theorem eq_call_of_kind {spec : CallSpec} (h : x.kind = .call spec) : ∃ p, x = .call spec p := by
  cases x with
  | call spec' p =>
    cases h
    exact ⟨p, rfl⟩
  | _ => cases h

theorem goesPlainly_of_follow (h : (fresh config).follow ms = some c)
    (hfew : c.shared.issued < 2 ^ 64) {spec : CallSpec} {p : CallPhase}
    (ht : c.tasks[t]? = some (.call spec p)) : goesPlainly p := by
  suffices hall : c.shared.issued < 2 ^ 64 → ∀ (t : TaskId) p,
      c.tasks[t]? = some (.call spec p) → goesPlainly p from hall hfew t p ht
  clear ht hfew
  refine follow_induct (P := fun _ c => c.shared.issued < 2 ^ 64 → ∀ (t : TaskId) p,
    c.tasks[t]? = some (.call spec p) → goesPlainly p) h nofun ?_
  intro ms m c₁ c₂ hms ih hm hfew t p ht
  have hfew₁ := Nat.lt_of_le_of_lt (apply_deals hm).issued_le hfew
  cases origin_of_apply hm ht with
  | started request _ hx =>
    cases request <;> cases hx
    trivial
  | spawned hnew => cases hnew.1
  | stayed _ ht => exact ih hfew₁ t p ht
  | stepped heq hy hstep =>
    obtain ⟨q, rfl⟩ := eq_call_of_kind hstep.kind.symm
    obtain ⟨c₃, next, hcall, rfl⟩ := (step_call hy).1 (heq ▸ hm)
    have hnext : next.after = p := by
      have hset : (c₃.tasks.set t (.call spec next.after))[t]? = some (.call spec next.after) := by
        rw [(callStep_cases hcall).tasks]
        exact List.getElem?_set_self (List.getElem?_eq_some_iff.1 hy).1
      cases hset.symm.trans ht
      rfl
    refine hnext ▸ callStep_goesPlainly hcall (ih hfew₁ t q hy)
      (reachable_iff_follow.2 ⟨ms, hms⟩).answersPlainly fun id failure hq hr => ?_
    have hstand : c₁.stand t = .ticket id := by
      rw [stand_of_getElem? hy, hq]
      rfl
    obtain ⟨n, pending, hok⟩ := register_ok (kept_of_follow hms hfew₁) hstand
    cases hr.symm.trans hok
  | aborted hserving => cases hserving

/-- The deeds of a call are among taking an id, entering the table under it and writing a request
with that id and an object for its parameters, each once and in this order. -/
def IsOneCall (deeds : List Deed) (method : String) : Prop :=
  ∃ (id : String) (request : DuplexRpc.Request), request.id = some (.string id) ∧
    request.method = method ∧ (∃ members, request.params = .object members) ∧
    deeds <+: [.took id, .entered id, .wrote (.text request.wire)]

theorem isOneCall_of_isPrefix (spec : CallSpec) {log : List Deed}
    (h : ∃ id, log <+: Deed.all spec.request id) : IsOneCall log spec.method := by
  obtain ⟨id, h⟩ := h
  exact ⟨id, spec.request id, rfl, rfl, spec.params.exists_asObject, h⟩

/-- However the moves of a client are interleaved, over all its connects, closes, lost links and
reconnects, as long as fewer than `2 ^ 64 - 1` calls and probes have taken an id: the ids are `c1`,
`c2`, `c3` and so on in the order in which they are taken, none twice; a call does no more than to
take an id, enter the table under it and write one request with it, and so does the last probe of a
heart; a call that is turned away before it takes an id changes nothing, then or later; one whose
method is blank or whose signal is cancelled when it begins is turned away, and as long as the link
is not open nobody is let in; and a call finds its id free in the table, so that none comes to the
failure of one that does not. -/
theorem call_ids_are_fresh (h : (fresh config).follow ms = some c)
    (hfew : c.shared.issued < 2 ^ 64 - 1) :
    (fresh config).takings ms =
      ((List.range c.shared.issued).map fun k => "c" ++ toString (k + 1)) ∧
    ((fresh config).takings ms).Nodup ∧
    (∀ (t : TaskId) spec p, c.tasks[t]? = some (.call spec p) →
      IsOneCall (noted (deeds t) (fresh config) ms) spec.method) ∧
    (∀ (t : TaskId) g p, c.tasks[t]? = some (.heart g p) →
      IsOneCall (Deed.lastCall (noted (deeds t) (fresh config) ms)) Protocol.heartbeatMethod) ∧
    (∀ (t : TaskId) spec p choice c₁ outcome, c.tasks[t]? = some (.call spec p) →
      p.isOutside = true → c.step t choice = some c₁ →
      c₁.tasks[t]? = some (.call spec (.done outcome)) →
      c₁.shared = c.shared ∧ ∀ ms' c', c₁.follow ms' = some c' →
        noted (deeds t) (fresh config) (ms ++ .step t choice :: ms') = []) ∧
    (∀ (t : TaskId) spec p, c.tasks[t]? = some (.call spec p) → ∀ ms' c', c.follow ms' = some c' →
      c.TurnedAway ms' spec p → noted (deeds t) (fresh config) (ms ++ ms') = [] ∧
        ∃ p', c'.tasks[t]? = some (.call spec p') ∧ isResultless p') ∧
    (∀ (t : TaskId) (f : CallFrame) id, c.tasks[t]? = some (f.next (.phase (.register id))) →
      ∃ n pending, c.shared.pending.register id = .ok (n, pending)) ∧
    ∀ (t : TaskId) spec id,
      c.tasks[t]? ≠ some (.call spec (.done (some (.error (PendingTable.duplicate id))))) := by
  have hfew₁ : c.shared.issued < 2 ^ 64 := Nat.lt_of_lt_pred hfew
  have haccounts := accounts_of_follow h
  have hdid {t : TaskId} {x : Task} (ht : c.tasks[t]? = some x) :
      x.Did (noted (deeds t) (fresh config) ms) := by
    have := haccounts t
    rwa [ht] at this
  -- who stands outside has done nothing so far
  have hnone {t : TaskId} {spec : CallSpec} {p : CallPhase} (ht : c.tasks[t]? = some (.call spec p))
      (hp : p.isOutside = true) : noted (deeds t) (fresh config) ms = [] :=
    (CallPhase.did_of_isOutside hp).1 (hdid ht)
  refine ⟨takings_eq h hfew, takings_nodup h hfew, fun t spec p ht => ?_, fun t g p ht => ?_,
    fun t spec p choice c₁ outcome ht hp hstep hdone => ?_, fun t spec p ht ms' c' hms' haway => ?_,
    fun t f id ht => ?_, fun t spec id ht => ?_⟩
  · exact isOneCall_of_isPrefix spec (CallPhase.Did.isPrefix (hdid ht))
  · have hprefix : ∃ id, Deed.lastCall (noted (deeds t) (fresh config) ms) <+:
        Deed.all heartbeatRequest id := by
      cases p with
      | probing p => exact CallPhase.Did.isPrefix (hdid ht)
      | _ => exact hdid ht
    exact isOneCall_of_isPrefix (.heartbeat config g) hprefix
  · obtain ⟨c₂, next, hcall, rfl⟩ := (step_call ht).1 hstep
    have hshared := (callStep_cases hcall).shared_of_isOutside hp
    refine ⟨hshared, fun ms' c' hms' => ?_⟩
    have hrest := deeds_of_confined (S := fun p => p = .done outcome) (Q := fun _ => True)
      (by rintro _ rfl; rfl) (by rintro c choice _ c₁ next - rfl hstep; cases hstep)
      (fun _ _ _ _ => trivial) hdone rfl hms'
    have hmove : c.apply (.step t choice) =
        some ⟨c₂.shared, c₂.tasks.set t (.call spec next.after)⟩ := hstep
    rw [noted_append h, hnone ht hp, List.nil_append, noted, hmove, Option.elim_some, hrest.1,
      deeds_of_still hdone rfl hshared]
    rfl
  · obtain ⟨hrest, hresult⟩ := haway.deeds ht hms'
    rw [noted_append h, hrest, hnone ht haway.isOutside]
    exact ⟨rfl, hresult⟩
  · exact register_ok (kept_of_follow h hfew₁) ((stand_of_getElem? ht).trans (stand_after f _))
  · exact goesPlainly_of_follow h hfew₁ ht _ rfl _ rfl

/-- The call of a task and how far it has come. -/
def call? (c : Client) (t : TaskId) : Option (CallSpec × CallPhase) :=
  match c.tasks[t]? with
  | some (.call spec p) => some (spec, p)
  | _ => none

theorem getElem?_of_call? {spec : CallSpec} {p : CallPhase} (h : c.call? t = some (spec, p)) :
    c.tasks[t]? = some (.call spec p) := by
  unfold call? at h
  split at h
  next ht =>
    cases h
    exact ht
  next => cases h

/-- A call on the first link of a client, one on the next, and one that has a blank method. -/
def callingTwice : List Move :=
  connecting 0 ++ calling 3 ++ .start .close :: closing 4 (some 1) ++ connecting 5 ++ calling 8 ++
    [.start (.call ⟨" ", .null, none, none⟩)]

theorem call_ids_are_fresh_calling : ∃ c, (fresh .standard).follow callingTwice = some c ∧
    c.shared.issued = 2 ∧ (fresh .standard).takings callingTwice = ["c1", "c2"] ∧
    noted (deeds 8) (fresh .standard) callingTwice =
      Deed.all (CallSpec.request ⟨"m", .null, none, none⟩) "c2" ∧
    IsOneCall (noted (deeds 8) (fresh .standard) callingTwice) "m" ∧
    noted (deeds 9) (fresh .standard) (callingTwice ++ [.step 9 .run]) = [] := by
  have hrun : ((fresh .standard).follow callingTwice).any (fun c => c.shared.issued = 2 ∧
      c.call? 8 = some (⟨"m", .null, none, none⟩, .awaitAnswer 1) ∧
      c.call? 9 = some (⟨" ", .null, none, none⟩, .start) ∧
      (c.follow [.step 9 .run]).isSome = true) = true := by
    decide +kernel
  obtain ⟨c, hc, hrun⟩ := Option.any_eq_true _ _ |>.1 hrun
  obtain ⟨hissued, hcall, hblank, hnext⟩ := of_decide_eq_true hrun
  obtain ⟨c', hc'⟩ := Option.isSome_iff_exists.1 hnext
  obtain ⟨htakings, -, hcalls, -, -, haway, -⟩ :=
    call_ids_are_fresh hc (by rw [hissued]; decide)
  refine ⟨c, hc, hissued, ?_, by decide +kernel, hcalls 8 _ _ (getElem?_of_call? hcall), ?_⟩
  · rw [htakings, hissued]
    decide +kernel
  · exact (haway 9 _ _ (getElem?_of_call? hblank) _ c' hc' (.blank (by decide +kernel))).1

end DuplexRpc.Client
