import DuplexRpc.Proofs.Pending.Steps

/-!
What becomes of every registration. Over a whole run each is completed at most once, by the resolve
or the wholesale failure that finds it in the table, and its receiver gets that outcome and no
other. Every entry leaves through one of four doors, so registrations and departures balance.
-/
namespace DuplexRpc

/-- The outcome that the receiver finds. -/
def Slot.outcome? : Slot → Option Outcome
  | answered outcome => some outcome
  | waiting | closed | dropped => none

theorem Slot.outcome?_abandon (s : Slot) : s.abandon.outcome? = s.outcome? := by
  cases s <;> rfl

theorem Slot.outcome?_take (s : Slot) : s.take.outcome? = none := by
  cases s <;> rfl

namespace PendingTable

variable {t t' : PendingTable} {op : Op} {id : String} {n : Nat} {outcome : Outcome}
  {s : Slot} {completed taken : List Outcome}

/-- The operations of a run, each with the table that it meets. -/
def history (t : PendingTable) : List Op → List (PendingTable × Op)
  | [] => []
  | op :: ops => (t, op) :: (t.step op).1.history ops

/-- The outcome that an operation has for a registration while the table has an entry for it. -/
def completion? (t : PendingTable) (n : Nat) : Op → Option Outcome
  | .resolve id outcome => if t.find? id = some n then some outcome else none
  | .failAll failure => if n ∈ t.entries.map (·.2) then some (.error failure) else none
  | _ => none

/-- The outcome that the receiver of a registration takes by an operation. -/
def taken? (t : PendingTable) (n : Nat) (op : Op) : Option Outcome :=
  match (t.step op).2 with
  | .polled slot => if op = .poll n then slot.outcome? else none
  | _ => none

/-- The outcome that lies ready for the receiver of a registration. -/
def held? (t : PendingTable) (n : Nat) : Option Outcome := (t.slot? n).bind Slot.outcome?

def completions (t : PendingTable) (n : Nat) (ops : List Op) : List Outcome :=
  (t.history ops).flatMap fun e => (e.1.completion? n e.2).toList

def takings (t : PendingTable) (n : Nat) (ops : List Op) : List Outcome :=
  (t.history ops).flatMap fun e => (e.1.taken? n e.2).toList

/-- The registration has been made, and the table has no entry for it any more. -/
def Left (t : PendingTable) (n : Nat) : Prop :=
  n < t.registrations.length ∧ ∀ id, t.find? id ≠ some n

theorem Sound.mem_map_entries_iff (h : t.Sound) :
    n ∈ t.entries.map (·.2) ↔ ∃ id, t.find? id = some n := by
  simp only [h.find?_eq_some_iff, List.mem_map, Prod.exists, exists_eq_right]

theorem completion?_cases (hc : t.completion? n op = some outcome) :
    (∃ id, op = .resolve id outcome ∧ t.find? id = some n) ∨
      ∃ failure, op = .failAll failure ∧ n ∈ t.entries.map (·.2) := by
  unfold completion? at hc
  split at hc
  · split at hc
    next hopen =>
      cases hc
      exact .inl ⟨_, rfl, hopen⟩
    next => cases hc
  · split at hc
    next hmem => exact .inr ⟨_, rfl, hmem⟩
    next => cases hc
  · cases hc

theorem Sound.find?_of_completion (h : t.Sound) (hc : t.completion? n op = some outcome) :
    ∃ id, t.find? id = some n := by
  obtain ⟨id, -, hopen⟩ | ⟨-, -, hmem⟩ := completion?_cases hc
  · exact ⟨id, hopen⟩
  · exact h.mem_map_entries_iff.1 hmem

/-- What has left does not come back. -/
theorem Left.step (h : t.Left n) (op : Op) : (t.step op).1.Left n := by
  refine ⟨Nat.lt_of_lt_of_le h.1 (length_step t op), fun id hopen => ?_⟩
  obtain hopen | ⟨-, -, hn⟩ := find?_of_step hopen
  · exact h.2 id hopen
  · exact absurd h.1 (by omega)

theorem Sound.left_of_completion (h : t.Sound) (hc : t.completion? n op = some outcome) :
    (t.step op).1.Left n := by
  obtain ⟨id, hopen⟩ := h.find?_of_completion hc
  obtain ⟨r, hr, -⟩ := h.openAs hopen
  refine ⟨Nat.lt_of_lt_of_le (List.getElem?_eq_some_iff.1 hr).1 (length_step t op),
    fun id' hopen' => ?_⟩
  obtain ⟨id'', rfl, hown⟩ | ⟨failure, rfl, -⟩ := completion?_cases hc
  · have hopen' : (t.close id'' _).2.find? id' = some n := hopen'
    rw [find?_close] at hopen'
    split at hopen'
    · cases hopen'
    next hne => exact hne (h.find?_injective hopen' hown)
  · cases hopen'

theorem taken?_poll (t : PendingTable) (n : Nat) :
    t.taken? n (.poll n) = (t.slot? n).bind Slot.outcome? := by
  unfold taken?
  rw [answer_poll]
  cases t.slot? n <;> simp

theorem taken?_of_ne (h : op ≠ .poll n) : t.taken? n op = none := by
  unfold taken?
  split <;> simp [h]

/-- The operation is not one of the receiver of the registration. -/
def IsForeign (n : Nat) : Op → Prop
  | .poll k | .dropReceiver k => k ≠ n
  | _ => True

theorem IsForeign.ne_poll (h : IsForeign n op) : op ≠ .poll n := by
  rintro rfl
  exact h rfl

/-- What an operation does to the slot of a registration that is there. -/
inductive SlotStep (t : PendingTable) (n : Nat) (op : Op) (s : Slot) : Slot → Prop where
  | kept (hc : t.completion? n op = none) (hop : IsForeign n op) : SlotStep t n op s s
  | completed (outcome : Outcome) (hc : t.completion? n op = some outcome)
    (hop : IsForeign n op) : SlotStep t n op s (s.deliver outcome)
  | abandoned (hc : t.completion? n op = none) (hop : IsForeign n op) :
    SlotStep t n op s s.abandon
  | taken (hpoll : op = .poll n) : SlotStep t n op s s.take
  | dropped (hdrop : op = .dropReceiver n) : SlotStep t n op s .dropped

theorem slot?_step (h : t.slot? n = some s) (op : Op) :
    ∃ s', (t.step op).1.slot? n = some s' ∧ t.SlotStep n op s s' := by
  have hclose (id : String) (f : Slot → Slot) :
      (t.close id f).2.slot? n = some (if t.find? id = some n then f s else s) := by
    rw [slot?_close, h]
    split <;> rfl
  have hremove (id : String) (hc : t.completion? n op = none) (hop : IsForeign n op) :
      ∃ s', (t.remove id).2.slot? n = some s' ∧ t.SlotStep n op s s' := by
    refine ⟨_, hclose id _, ?_⟩
    split
    · exact .abandoned hc hop
    · exact .kept hc hop
  have hupdate (k : Nat) (f : Slot → Slot) :
      (t.updateSlot k f).slot? n = some (if k = n then f s else s) := by
    rw [slot?_updateSlot, h]
    split <;> rfl
  cases op with
  | register id =>
    refine ⟨s, ?_, .kept rfl trivial⟩
    cases hr : t.register id with
    | error failure => simpa only [step, hr] using h
    | ok p =>
      obtain ⟨r, hget, -⟩ := Option.map_eq_some_iff.1 h
      have hlt := (List.getElem?_eq_some_iff.1 hget).1
      have hne : n ≠ p.1 := by
        have := (length_register hr).1
        omega
      simp only [step, hr, slot?_register hr, if_neg hne, h]
  | resolve id outcome =>
    refine ⟨_, hclose id _, ?_⟩
    split
    next hopen => exact .completed outcome (if_pos hopen) trivial
    next hother => exact .kept (if_neg hother) trivial
  | failAll failure =>
    by_cases hmem : n ∈ t.entries.map (·.2)
    · exact ⟨_, by rw [step, slot?_failAll, if_pos hmem, h]; rfl,
        .completed (.error failure) (if_pos hmem) trivial⟩
    · exact ⟨s, by simpa [step, hmem] using h, .kept (if_neg hmem) trivial⟩
  | remove id => exact hremove id rfl trivial
  | contains id => exact ⟨s, h, .kept rfl trivial⟩
  | dropGuard k =>
    by_cases hk : ∃ id, t.face? k = some (id, true)
    · obtain ⟨id, hk⟩ := hk
      simp only [step, dropGuard_of_guarded hk, slot?_unguard]
      exact hremove id rfl trivial
    · simp only [step, dropGuard_of_not_guarded (not_exists.1 hk)]
      exact ⟨s, h, .kept rfl trivial⟩
  | dropReceiver k =>
    refine ⟨_, hupdate k _, ?_⟩
    split
    next hk => exact .dropped (by rw [hk])
    next hk => exact .kept rfl hk
  | poll k =>
    refine ⟨_, hupdate k _, ?_⟩
    split
    next hk => exact .taken (by rw [hk])
    next hk => exact .kept rfl hk

theorem SlotStep.of_dropped (h : t.SlotStep n op .dropped s) : s = .dropped := by
  cases h <;> rfl

theorem SlotStep.taken?_of_dropped {s' : Slot} (h : t.SlotStep n op s s') (hs' : s' = .dropped)
    (hslot : t.slot? n = some s) : t.taken? n op = none := by
  cases h with
  | kept _ hop | completed _ _ hop | abandoned _ hop => exact taken?_of_ne hop.ne_poll
  | taken hpoll =>
    rw [hpoll, taken?_poll, hslot]
    cases s with
    | answered outcome => cases hs'
    | waiting | closed | dropped => rfl
  | dropped hdrop => exact taken?_of_ne (by simp [hdrop])

theorem Sound.isOpen_of_completion (h : t.Sound) (hc : t.completion? n op = some outcome)
    (hslot : t.slot? n = some s) : s.isOpen = true := by
  obtain ⟨id, hopen⟩ := h.find?_of_completion hc
  obtain ⟨r, hr, -, -, hs⟩ := h.openAs hopen
  rw [slot?, hr] at hslot
  exact Option.some.inj hslot ▸ hs

/-- An outcome comes to lie ready by a completion alone, and stays there until its own receiver
takes it or is dropped. -/
theorem SlotStep.answered_iff {s' : Slot} (h : t.SlotStep n op s s') (hs : t.Sound)
    (hslot : t.slot? n = some s) : s' = .answered outcome ↔
      s = .answered outcome ∧ IsForeign n op ∨
        t.completion? n op = some outcome ∧ s = .waiting := by
  cases h with
  | kept hc hop => simp [hc, hop]
  | completed o hc hop =>
    have hopen := hs.isOpen_of_completion hc hslot
    cases s with
    | waiting => simp [Slot.deliver, hc]
    | dropped => simp [Slot.deliver]
    | answered | closed => cases hopen
  | abandoned hc hop => cases s <;> simp [Slot.abandon, hc, hop]
  | taken hpoll => cases s <;> simp [Slot.take, IsForeign, hpoll, completion?]
  | dropped hdrop => simp [IsForeign, hdrop, completion?]

/-- What is taken and what lies ready are what was ready and what is completed. -/
theorem SlotStep.balance {s' : Slot} (h : t.SlotStep n op s s') (hs : t.Sound)
    (hslot : t.slot? n = some s) (hthere : s' ≠ .dropped) :
    (t.taken? n op).toList ++ s'.outcome?.toList =
      s.outcome?.toList ++ (t.completion? n op).toList := by
  cases h with
  | kept hc hop => simp [taken?_of_ne hop.ne_poll, hc]
  | completed outcome hc hop =>
    rw [taken?_of_ne hop.ne_poll, hc]
    have hopen := hs.isOpen_of_completion hc hslot
    cases s with
    | waiting => rfl
    | dropped => exact absurd rfl hthere
    | answered | closed => cases hopen
  | abandoned hc hop => simp [taken?_of_ne hop.ne_poll, hc, Slot.outcome?_abandon]
  | taken hpoll =>
    subst hpoll
    rw [taken?_poll, hslot, Slot.outcome?_take]
    rfl
  | dropped => exact absurd rfl hthere

/-- What a registration has been completed with, and what its receiver has taken. -/
structure Account (t : PendingTable) (n : Nat) (completed taken : List Outcome) : Prop where
  once : completed.length ≤ 1
  left : completed ≠ [] → t.Left n
  isPrefix : taken <+: completed
  balance : t.slot? n ≠ some .dropped → taken ++ (t.held? n).toList = completed

theorem slot?_step_of_none (h : t.slot? n = none) (op : Op) :
    (t.step op).1.slot? n = none ∨ (t.step op).1.slot? n = some .waiting := by
  cases hr : (t.step op).1.registrations[n]? with
  | none => exact .inl (by rw [slot?, hr]; rfl)
  | some r =>
    have hface : (t.step op).1.face? n = some (r.id, r.guarded) := by rw [face?, hr]; rfl
    obtain ⟨g, hold, -⟩ | ⟨rfl, hfree, hn⟩ := face?_of_step hface
    · obtain ⟨r', hr', -⟩ := Option.map_eq_some_iff.1 hold
      rw [slot?, hr'] at h
      cases h
    · obtain ⟨t', hreg⟩ := register_of_free hfree
      refine .inr ?_
      simp only [step, hreg, slot?_register hreg, if_pos hn]

theorem Sound.answered_step_iff (h : t.Sound) :
    (t.step op).1.slot? n = some (.answered outcome) ↔
      t.slot? n = some (.answered outcome) ∧ IsForeign n op ∨
        t.completion? n op = some outcome ∧ t.slot? n = some .waiting := by
  cases hslot : t.slot? n with
  | none =>
    obtain hnone | hnew := slot?_step_of_none hslot op
    · simp [hnone]
    · simp [hnew]
  | some s =>
    obtain ⟨s', hs', hstep⟩ := slot?_step hslot op
    simpa only [hs', Option.some.injEq] using hstep.answered_iff h hslot

theorem Sound.completion?_of_none (h : t.Sound) (hslot : t.slot? n = none) (op : Op) :
    t.completion? n op = none := by
  cases hc : t.completion? n op with
  | none => rfl
  | some outcome =>
    obtain ⟨id, hopen⟩ := h.find?_of_completion hc
    obtain ⟨r, hr, -⟩ := h.openAs hopen
    rw [slot?, hr] at hslot
    cases hslot

theorem taken?_of_none (h : t.slot? n = none) (op : Op) : t.taken? n op = none := by
  by_cases hpoll : op = .poll n
  · rw [hpoll, taken?_poll, h]
    rfl
  · exact taken?_of_ne hpoll

theorem Account.of_none (h : t.Account n completed taken) (hslot : t.slot? n = none) :
    completed = [] ∧ taken = [] := by
  have hc : completed = [] := by
    refine Classical.byContradiction fun hne => ?_
    have hlt := (h.left hne).1
    simp [slot?, hlt] at hslot
  exact ⟨hc, List.prefix_nil.1 (hc ▸ h.isPrefix)⟩

/-- What the table still has an entry for has not been completed. -/
theorem Account.completed_eq_nil (h : t.Account n completed taken) (hopen : t.find? id = some n) :
    completed = [] :=
  Classical.byContradiction fun hne => (h.left hne).2 id hopen

theorem Account.step (h : t.Account n completed taken) (hs : t.Sound) (op : Op) :
    (t.step op).1.Account n (completed ++ (t.completion? n op).toList)
      (taken ++ (t.taken? n op).toList) := by
  cases hslot : t.slot? n with
  | none =>
    obtain ⟨rfl, rfl⟩ := h.of_none hslot
    rw [hs.completion?_of_none hslot, taken?_of_none hslot]
    refine ⟨Nat.zero_le _, fun hne => absurd rfl hne, List.prefix_rfl, fun _ => ?_⟩
    obtain hnone | hnew := slot?_step_of_none hslot op
    · rw [held?, hnone]
      rfl
    · rw [held?, hnew]
      rfl
  | some s =>
    obtain ⟨s', hslot', hstep⟩ := slot?_step hslot op
    have hbalance (hthere : s' ≠ .dropped) :
        taken ++ (t.taken? n op).toList ++ s'.outcome?.toList =
          completed ++ (t.completion? n op).toList := by
      have hbefore : t.slot? n ≠ some .dropped := by
        rw [hslot]
        rintro heq
        cases heq
        exact hthere hstep.of_dropped
      have hheld : t.held? n = s.outcome? := by rw [held?, hslot]; rfl
      rw [List.append_assoc, hstep.balance hs hslot hthere, ← List.append_assoc, ← hheld,
        h.balance hbefore]
    constructor
    case once =>
      cases hc : t.completion? n op with
      | none => simpa using h.once
      | some outcome =>
        obtain ⟨id, hopen⟩ := hs.find?_of_completion hc
        simp [h.completed_eq_nil hopen]
    case left =>
      intro hne
      cases hc : t.completion? n op with
      | none => exact (h.left (by simpa [hc] using hne)).step op
      | some outcome => exact hs.left_of_completion hc
    case isPrefix =>
      by_cases hthere : s' = .dropped
      · rw [hstep.taken?_of_dropped hthere hslot, Option.toList_none, List.append_nil]
        exact h.isPrefix.trans (List.prefix_append ..)
      · exact ⟨_, hbalance hthere⟩
    case balance =>
      intro hthere
      rw [hslot'] at hthere
      rw [held?, hslot']
      exact hbalance fun heq => hthere (by rw [heq])

theorem Account.run (h : t.Account n completed taken) (hs : t.Sound) (ops : List Op) :
    (t.run ops).Account n (completed ++ t.completions n ops) (taken ++ t.takings n ops) := by
  induction ops generalizing t completed taken with
  | nil => simpa [completions, takings, history, PendingTable.run] using h
  | cons op ops ih =>
    have := ih (h.step hs op) (hs.step op)
    simpa only [completions, takings, history, List.flatMap_cons, List.append_assoc,
      PendingTable.run, List.foldl_cons] using this

/-- How many registrations an operation makes. -/
def made (t : PendingTable) : Op → Nat
  | .register id =>
    match t.register id with
    | .ok _ => 1
    | .error _ => 0
  | _ => 0

/-- How many entries an operation takes out by resolving an id. -/
def resolved (t : PendingTable) : Op → Nat
  | .resolve id outcome => (t.resolve id outcome).1.toNat
  | _ => 0

/-- How many entries an operation takes out by failing all. -/
def failed (t : PendingTable) : Op → Nat
  | .failAll failure => (t.failAll failure).1
  | _ => 0

/-- How many entries an operation takes out by removing an id. -/
def removed (t : PendingTable) : Op → Nat
  | .remove id => (t.remove id).1.toNat
  | _ => 0

/-- How many entries an operation takes out by dropping a guard. -/
def cleared (t : PendingTable) : Op → Nat
  | .dropGuard n => if (t.dropGuard n).size < t.size then 1 else 0
  | _ => 0

/-- What the operations of a run make or take out all together. -/
def total (f : PendingTable → Op → Nat) (t : PendingTable) : List Op → Nat
  | [] => 0
  | op :: ops => f t op + (t.step op).1.total f ops

theorem length_filter_ne {entries : List (String × Nat)} (h : (entries.map (·.1)).Nodup)
    (id : String) : (entries.filter (·.1 != id)).length + (entries.lookup id).isSome.toNat =
      entries.length := by
  induction entries with
  | nil => rfl
  | cons e es ih =>
    obtain ⟨k, m⟩ := e
    obtain ⟨hk, hes⟩ := List.nodup_cons.1 h
    by_cases hid : id = k
    · subst hid
      have hrest : es.filter (·.1 != id) = es :=
        List.filter_eq_self.2 fun e he => bne_iff_ne.2 fun heq => hk (List.mem_map.2 ⟨e, he, heq⟩)
      simp [hrest]
    · have hkept : (k != id) = true := bne_iff_ne.2 (Ne.symm hid)
      have := ih hes
      simp only [List.filter_cons, hkept, if_true, List.length_cons, List.lookup_cons,
        beq_eq_false_iff_ne.2 hid]
      omega

theorem flag_close (t : PendingTable) (id : String) (f : Slot → Slot) :
    (t.close id f).1 = (t.find? id).isSome := by
  unfold close
  split
  next hn => simp [hn]
  next hn => simp [hn]

/-- A close takes out one entry, and says so, or none. -/
theorem Sound.size_close (h : t.Sound) (id : String) (f : Slot → Slot) :
    (t.close id f).2.size + (t.close id f).1.toNat = t.size := by
  rw [size, entries_close, flag_close]
  exact length_filter_ne h.distinct id

theorem size_register (h : t.register id = .ok (n, t')) : t'.size = t.size + 1 := by
  unfold register at h
  split at h <;> cases h
  rfl

theorem Sound.size_dropGuard (h : t.Sound) (n : Nat) :
    (t.dropGuard n).size + t.cleared (.dropGuard n) = t.size := by
  show (t.dropGuard n).size + (if (t.dropGuard n).size < t.size then 1 else 0) = t.size
  by_cases hn : ∃ id, t.face? n = some (id, true)
  · obtain ⟨id, hn⟩ := hn
    have hsize := h.size_close id (·.abandon)
    have hleft : (t.dropGuard n).size = (t.close id (·.abandon)).2.size := by
      rw [dropGuard_of_guarded hn]
      rfl
    have hone := Bool.toNat_le (t.close id (·.abandon)).1
    split <;> omega
  · simp [dropGuard_of_not_guarded (not_exists.1 hn)]

/-- Entries are made by registrations alone, and leave through one of the four doors. -/
theorem Sound.size_step (h : t.Sound) (op : Op) : t.made op + t.size =
    (t.step op).1.size + t.resolved op + t.failed op + t.removed op + t.cleared op := by
  cases op with
  | register id =>
    cases hr : t.register id with
    | error failure => simp [made, resolved, failed, removed, cleared, PendingTable.step, hr]
    | ok p =>
      have hsize := size_register hr
      simp only [made, resolved, failed, removed, cleared, PendingTable.step, hr]
      omega
  | resolve id outcome =>
    have hsize := h.size_close id (·.deliver outcome)
    exact (Nat.zero_add _).trans hsize.symm
  | failAll failure =>
    show 0 + t.entries.length = 0 + 0 + t.entries.length + 0 + 0
    omega
  | remove id =>
    have hsize := h.size_close id (·.abandon)
    exact (Nat.zero_add _).trans hsize.symm
  | contains id => exact Nat.zero_add _
  | dropGuard n => exact (Nat.zero_add _).trans (h.size_dropGuard n).symm
  | dropReceiver n => exact Nat.zero_add _
  | poll n => exact Nat.zero_add _

theorem Sound.size_run (h : t.Sound) (ops : List Op) : t.total made ops + t.size =
    (t.run ops).size + t.total resolved ops + t.total failed ops + t.total removed ops +
      t.total cleared ops := by
  induction ops generalizing t with
  | nil => simp [total, PendingTable.run]
  | cons op ops ih =>
    have hstep := h.size_step op
    have hrest := ih (h.step op)
    rw [show t.run (op :: ops) = (t.step op).1.run ops from rfl]
    simp only [total]
    omega

theorem Account.empty (n : Nat) : PendingTable.empty.Account n [] [] :=
  ⟨Nat.zero_le _, fun hne => absurd rfl hne, List.prefix_rfl, fun _ => rfl⟩

/-- No registration is completed twice, nor by anything but a resolve of its id or a wholesale
failure that finds it in the table; its receiver has taken or finds exactly that outcome, as long as
it is there, and nothing that is done elsewhere changes it. A registration is refused exactly if its
id is open, without any effect. All registrations are either in the table or have left it once:
resolved, failed, removed, or cleared by a guard. -/
theorem completed_once_and_none_lost (ops : List Op) :
    (∀ n, (empty.completions n ops).length ≤ 1 ∧
      (∀ id, (empty.run ops).find? id = some n → empty.completions n ops = []) ∧
      empty.takings n ops <+: empty.completions n ops ∧
      ((empty.run ops).slot? n ≠ some .dropped →
        empty.takings n ops ++ ((empty.run ops).held? n).toList = empty.completions n ops)) ∧
    (∀ n op outcome, ((empty.run ops).step op).1.slot? n = some (.answered outcome) ↔
      (empty.run ops).slot? n = some (.answered outcome) ∧ IsForeign n op ∨
        (empty.run ops).completion? n op = some outcome ∧
          (empty.run ops).slot? n = some .waiting) ∧
    (∀ id, ((∃ failure, (empty.run ops).register id = .error failure) ↔
        (empty.run ops).contains id = true) ∧
      ((empty.run ops).contains id = true →
        ((empty.run ops).step (.register id)).1 = empty.run ops)) ∧
    empty.total made ops = (empty.run ops).size + empty.total resolved ops +
      empty.total failed ops + empty.total removed ops + empty.total cleared ops := by
  have haccount (n : Nat) := (Account.empty n).run .empty ops
  refine ⟨fun n => ⟨(haccount n).once, fun id hopen => (haccount n).completed_eq_nil hopen,
    (haccount n).isPrefix, (haccount n).balance⟩,
    fun n op outcome => (sound_run ops).answered_step_iff,
    fun id => ⟨?_, fun hopen => ?_⟩, Sound.size_run .empty ops⟩
  · simp only [register_eq_error_iff]
    exact ⟨fun ⟨_, hopen, _⟩ => hopen, fun hopen => ⟨_, hopen, rfl⟩⟩
  · have hrefused := register_eq_error_iff.2 ⟨hopen, rfl⟩
    simp only [step, hrefused]

/-- An id that is used again while its first guard is still there, which then takes the entry. -/
def reusing : List Op :=
  [.register "a", .register "b", .resolve "a" (.ok .null), .failAll .connectionClosed,
    .register "a", .register "a", .poll 0, .dropGuard 0]

theorem completed_once_and_none_lost_reusing :
    empty.takings 0 reusing = [.ok .null] ∧
      ((empty.run reusing).step (.resolve "b" (.ok .null))).1.slot? 1 =
        some (.answered (.error .connectionClosed)) ∧
      ((empty.run (reusing.take 5)).step (.register "a")).1 = empty.run (reusing.take 5) ∧
      empty.total made reusing = 0 + 1 + 1 + 0 + 1 := by
  have h := completed_once_and_none_lost reusing
  have hbalance := (h.1 0).2.2.2 (by decide)
  have hready := (h.2.1 1 (.resolve "b" (.ok .null)) _).2 (.inl ⟨rfl, trivial⟩)
  have hrefused := ((completed_once_and_none_lost (reusing.take 5)).2.2.1 "a").2 rfl
  exact ⟨(List.append_nil _).symm.trans hbalance, hready, hrefused, h.2.2.2⟩

end PendingTable
end DuplexRpc
