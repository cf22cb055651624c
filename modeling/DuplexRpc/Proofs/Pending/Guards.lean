import DuplexRpc.Proofs.Pending.Steps

/-!
Guards and receivers. What is open under an id is its newest registration; that one is guarded, and
its receiver, if there still is one, waits. A guard clears its id, whoever stands under it. So guards
take their own entries exactly as long as no id is registered again before the guards of its earlier
registrations are gone; after that, a guard takes the entry of a later registration.
-/
namespace DuplexRpc.PendingTable

variable {t : PendingTable} {op : Op} {id : String} {n m : Nat}

/-- Every guard that is dropped removes an entry exactly if that is the one its own registration has
made, and otherwise leaves all entries alone. -/
def GuardsTakeOwn (t : PendingTable) : Prop :=
  ∀ n id, t.face? n = some (id, true) →
    ((t.dropGuard n).entries ≠ t.entries ↔ t.find? id = some n)

/-- A guard under whose id something is open is that of its registration. -/
def Sole (t : PendingTable) : Prop :=
  ∀ n m id, t.face? n = some (id, true) → t.find? id = some m → m = n

/-- What is open under an id is the last registration of that id. -/
def Newest (t : PendingTable) : Prop :=
  ∀ n m id g, t.face? n = some (id, g) → t.find? id = some m → n ≤ m

/-- An id that is registered has no guards left from before. -/
def Releases (t : PendingTable) : Op → Prop
  | .register id => t.find? id = none → ∀ r ∈ t.registrations, r.id = id → r.guarded = false
  | _ => True

/-- In the whole run ids are registered again only when their earlier guards are gone. -/
def ReleasesFirst (t : PendingTable) : List Op → Prop
  | [] => True
  | op :: ops => t.Releases op ∧ (t.step op).1.ReleasesFirst ops

instance (t : PendingTable) : (op : Op) → Decidable (t.Releases op)
  | .register id => inferInstanceAs (Decidable (t.find? id = none →
      ∀ r ∈ t.registrations, r.id = id → r.guarded = false))
  | .resolve .. | .failAll _ | .remove _ | .contains _ | .dropGuard _ | .dropReceiver _ | .poll _ =>
    .isTrue trivial

instance decidableReleasesFirst (t : PendingTable) :
    (ops : List Op) → Decidable (t.ReleasesFirst ops)
  | [] => .isTrue trivial
  | op :: ops => @instDecidableAnd _ _ _ (decidableReleasesFirst (t.step op).1 ops)

theorem entries_dropGuard_ne_iff (h : t.face? n = some (id, true)) :
    (t.dropGuard n).entries ≠ t.entries ↔ ∃ m, t.find? id = some m := by
  rw [entries_dropGuard h, ne_eq, List.filter_eq_self, ← Option.isSome_iff_exists,
    ← contains_eq_isSome, contains, List.any_eq_true]
  simp

theorem guardsTakeOwn_iff_sole : t.GuardsTakeOwn ↔ t.Sole := by
  constructor
  · intro h n m id hn hm
    have hown := (h n id hn).1 ((entries_dropGuard_ne_iff hn).2 ⟨m, hm⟩)
    exact Option.some.inj (hm.symm.trans hown)
  · intro h n id hn
    rw [entries_dropGuard_ne_iff hn]
    constructor
    · rintro ⟨m, hm⟩
      exact h n m id hn hm ▸ hm
    · exact fun hm => ⟨n, hm⟩

/-- A step keeps guards to their own exactly if it registers no id that still has a guard. -/
theorem Sole.step_iff (h : t.Sole) (op : Op) : (t.step op).1.Sole ↔ t.Releases op := by
  constructor
  · intro hafter
    cases op with
    | register id =>
      intro hfree r hr hid
      obtain ⟨n, hn⟩ := List.mem_iff_getElem?.1 hr
      obtain ⟨t', hreg⟩ := register_of_free hfree
      rw [show (t.step (.register id)).1 = t' by simp only [step, hreg]] at hafter
      cases hg : r.guarded with
      | false => rfl
      | true =>
        have hold : t.face? n = some (id, true) := by simp [face?, hn, hid, hg]
        have hlt := lt_length_of_face? hold
        have hface : t'.face? n = some (id, true) := by
          rw [face?_register hreg, if_neg (by omega), hold]
        have hopen : t'.find? id = some t.registrations.length := by
          rw [find?_register hreg, if_pos rfl]
        have := hafter n _ id hface hopen
        omega
    | _ => trivial
  · intro hrel n m id hn hm
    obtain ⟨g, hold, hg⟩ | ⟨-, hfree, hnew⟩ := face?_of_step hn
    · obtain hopen | ⟨rfl, hfree, -⟩ := find?_of_step hm
      · exact h n m id (hg rfl ▸ hold) hopen
      · -- the guard from before stands against the new registration
        obtain ⟨r, hr, heq⟩ := Option.map_eq_some_iff.1 hold
        obtain ⟨hid, hguard⟩ := Prod.mk.inj heq
        have hgone := hrel hfree r (List.mem_of_getElem? hr) hid
        rw [hguard, hg rfl] at hgone
        cases hgone
    · obtain hopen | ⟨-, -, hlast⟩ := find?_of_step hm
      · rw [hfree] at hopen
        cases hopen
      · rw [hnew, hlast]

theorem Sole.run_iff (h : t.Sole) (ops : List Op) :
    (∀ before, before <+: ops → (t.run before).Sole) ↔ t.ReleasesFirst ops := by
  induction ops generalizing t with
  | nil => simpa [ReleasesFirst, run] using h
  | cons op ops ih =>
    constructor
    · intro hall
      have hstep : (t.step op).1.Sole := hall [op] (by simp)
      refine ⟨(h.step_iff op).1 hstep, (ih hstep).1 fun before hbefore => ?_⟩
      exact hall (op :: before) (List.cons_prefix_cons.2 ⟨rfl, hbefore⟩)
    · rintro ⟨hrel, hrest⟩ before hbefore
      cases before with
      | nil => exact h
      | cons op' before =>
        obtain ⟨rfl, hrun⟩ := List.cons_prefix_cons.1 hbefore
        exact (ih ((h.step_iff op').2 hrel)).2 hrest before hrun

theorem Newest.step (h : t.Newest) (op : Op) : (t.step op).1.Newest := by
  intro n m id g hn hm
  obtain ⟨g', hold, -⟩ | ⟨-, hfree, hnew⟩ := face?_of_step hn
  · obtain hopen | ⟨-, -, hlast⟩ := find?_of_step hm
    · exact h n m id g' hold hopen
    · exact hlast ▸ Nat.le_of_lt (lt_length_of_face? hold)
  · obtain hopen | ⟨-, -, hlast⟩ := find?_of_step hm
    · rw [hfree] at hopen
      cases hopen
    · exact Nat.le_of_eq (hnew.trans hlast.symm)

theorem newest_run (ops : List Op) : (empty.run ops).Newest :=
  Leads.induct (P := Newest) (fun _ op h => h.step op) ⟨ops, rfl⟩ fun _ _ _ _ _ hm => by cases hm

/-- The receiver of an entry that a foreign guard takes gets nothing more. -/
theorem slot?_dropGuard_of_open (hn : t.face? n = some (id, true)) (hm : t.find? id = some m) :
    (t.dropGuard n).slot? m = (t.slot? m).map (·.abandon) := by
  rw [dropGuard_of_guarded hn, slot?_unguard, remove, slot?_close, if_pos hm]

/-- In a run guards take no entries but their own exactly if ids are registered again only when
their earlier guards are gone. A guard that takes another entry takes it from a later registration
of its id, whose receiver then waits in vain. -/
theorem guards_take_own_iff_releases_first (ops : List Op) :
    ((∀ before, before <+: ops → (empty.run before).GuardsTakeOwn) ↔ empty.ReleasesFirst ops) ∧
    ∀ n m id, (empty.run ops).face? n = some (id, true) → (empty.run ops).find? id = some m →
      m ≠ n → n < m ∧ ((empty.run ops).dropGuard n).find? id = none ∧
        ((empty.run ops).slot? m = some .waiting →
          ((empty.run ops).dropGuard n).slot? m = some .closed) := by
  constructor
  · simp only [guardsTakeOwn_iff_sole]
    exact Sole.run_iff (fun _ _ _ _ hm => by cases hm) ops
  · intro n m id hn hm hne
    refine ⟨?_, ?_, fun hw => ?_⟩
    · exact Nat.lt_of_le_of_ne (newest_run ops n m id true hn hm) (Ne.symm hne)
    · rw [find?, entries_dropGuard hn, lookup_filter_ne, if_pos rfl]
    · rw [slot?_dropGuard_of_open hn hm, hw]
      rfl

/-- An id that is answered and registered again while its first guard is still there. -/
def reuse : List Op := [.register "a", .resolve "a" (.ok .null), .register "a"]

/-- The first guard takes the entry of the second registration, which nothing has ended. -/
theorem first_guard_takes_second_entry :
    (empty.run reuse).face? 0 = some ("a", true) ∧ (empty.run reuse).find? "a" = some 1 ∧
      (empty.run reuse).slot? 1 = some .waiting ∧ ((empty.run reuse).dropGuard 0).entries = [] ∧
      ((empty.run reuse).dropGuard 0).slot? 1 = some .closed ∧
      ¬ (empty.run reuse).GuardsTakeOwn := by
  refine ⟨rfl, rfl, rfl, rfl, rfl, fun h => ?_⟩
  have hfirst := (h 0 "a" rfl).1 (by decide)
  exact absurd hfirst (by decide)

theorem guards_take_own_iff_releases_first_in_turn :
    empty.ReleasesFirst (reuse.insertIdx 2 (.dropGuard 0)) ∧
      (empty.run (reuse.insertIdx 2 (.dropGuard 0))).GuardsTakeOwn ∧
      (0 < 1 ∧ ((empty.run reuse).dropGuard 0).find? "a" = none) := by
  have h : empty.ReleasesFirst (reuse.insertIdx 2 (.dropGuard 0)) := by decide
  have hown := (guards_take_own_iff_releases_first _).1.2 h _ (List.prefix_refl _)
  have hforeign := (guards_take_own_iff_releases_first reuse).2 0 1 "a" rfl rfl (by decide)
  exact ⟨h, hown, hforeign.1, hforeign.2.1⟩

theorem poll_eq_iff {s : Slot} : (t.step (.poll n)).2 = .polled s ↔ t.slot? n = some s := by
  rw [answer_poll]
  cases t.slot? n <;> simp

/-- A receiver that is there waits exactly if the table has its registration under its id. -/
theorem waiting_iff_open (hs : t.Sound) (hl : t.Listed) {r : Registration}
    (hr : t.registrations[n]? = some r) (hthere : r.slot ≠ .dropped) :
    t.slot? n = some .waiting ↔ t.find? r.id = some n := by
  constructor
  · intro hw
    obtain ⟨⟨id, k⟩, hmem, rfl⟩ := List.mem_map.1 (hl n hw)
    have hopen := hs.find?_eq_some_iff.2 hmem
    obtain ⟨r', hr', hid, -⟩ := hs.openAs hopen
    rw [hr] at hr'
    cases hr'
    exact hid ▸ hopen
  · intro hopen
    obtain ⟨r', hr', -, -, hslot⟩ := hs.openAs hopen
    rw [hr] at hr'
    cases hr'
    rw [slot?, hr, Option.map_some]
    cases hsl : r.slot with
    | waiting => rfl
    | dropped => exact absurd hsl hthere
    | answered outcome | closed =>
      rw [hsl] at hslot
      cases hslot

theorem sound_listed_run (ops : List Op) : (empty.run ops).Sound ∧ (empty.run ops).Listed :=
  Leads.sound_listed ⟨ops, rfl⟩ ⟨.empty, .empty⟩

/-- No receiver is left waiting and no entry is left over: whatever has been done, a receiver that
is there finds nothing yet exactly if the table has its own registration under its id, every entry
is that of a registration whose guard is there, and without guards there are no entries. -/
theorem polled_empty_iff_open (ops : List Op) :
    (∀ n r, (empty.run ops).registrations[n]? = some r → r.slot ≠ .dropped →
      (((empty.run ops).step (.poll n)).2 = .polled .waiting ↔
        (empty.run ops).find? r.id = some n)) ∧
    (∀ e ∈ (empty.run ops).entries, ∃ r, (empty.run ops).registrations[e.2]? = some r ∧
      r.id = e.1 ∧ r.guarded = true) ∧
    ((∀ r ∈ (empty.run ops).registrations, r.guarded = false) →
      (empty.run ops).isEmpty = true) := by
  obtain ⟨hs, hl⟩ := sound_listed_run ops
  have howned (e) (he : e ∈ (empty.run ops).entries) :
      ∃ r, (empty.run ops).registrations[e.2]? = some r ∧ r.id = e.1 ∧ r.guarded = true := by
    obtain ⟨r, hr, hid, hguarded, -⟩ := hs.owned e he
    exact ⟨r, hr, hid, hguarded⟩
  refine ⟨fun n r hr hthere => ?_, howned, fun hnone => ?_⟩
  · rw [poll_eq_iff]
    exact waiting_iff_open hs hl hr hthere
  · refine List.isEmpty_iff.2 (List.eq_nil_iff_forall_not_mem.2 fun e he => ?_)
    obtain ⟨r, hr, -, hguarded⟩ := howned e he
    rw [hnone r (List.mem_of_getElem? hr)] at hguarded
    cases hguarded

theorem polled_empty_iff_open_again :
    ((empty.run reuse).step (.poll 1)).2 = .polled .waiting ∧
      (empty.run (reuse ++ [.dropGuard 0, .dropGuard 1])).isEmpty = true := by
  have hopen : (empty.run reuse).find? "a" = some 1 := rfl
  have hpoll := (polled_empty_iff_open reuse).1 1 ⟨"a", true, .waiting⟩ rfl (by decide)
  have hempty := (polled_empty_iff_open (reuse ++ [.dropGuard 0, .dropGuard 1])).2.2 (by decide)
  exact ⟨hpoll.2 hopen, hempty⟩

end DuplexRpc.PendingTable
