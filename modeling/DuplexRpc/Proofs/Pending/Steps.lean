import DuplexRpc.Proofs.Pending.Settled

/-!
What one operation does to the entries and to the registrations. Ids are kept for good, a guard that
is gone does not come back, and nothing but a registration under a free id adds an entry, which is
that of the new registration.
-/
namespace DuplexRpc.PendingTable

variable {t t' : PendingTable} {op : Op} {id : String} {n : Nat} {g : Bool}

/-- The id of a registration, and whether its guard is still there. -/
def face? (t : PendingTable) (n : Nat) : Option (String × Bool) :=
  (t.registrations[n]?).map fun r => (r.id, r.guarded)

@[simp] theorem face?_updateSlot (t : PendingTable) (m : Nat) (f : Slot → Slot) (n : Nat) :
    (t.updateSlot m f).face? n = t.face? n := by
  unfold face?
  rw [registrations_updateSlot]
  split
  · rw [Option.map_map]
    rfl
  · rfl

@[simp] theorem face?_close (t : PendingTable) (id : String) (f : Slot → Slot) (n : Nat) :
    (t.close id f).2.face? n = t.face? n := by
  unfold close
  split
  · exact face?_updateSlot ..
  · rfl

@[simp] theorem face?_failAll (t : PendingTable) (failure : Failure) (n : Nat) :
    (t.failAll failure).2.face? n = t.face? n := by
  suffices h : ∀ (es : List (String × Nat)) (t : PendingTable),
      (es.foldl (fun t e => t.updateSlot e.2 (·.deliver (.error failure))) t).face? n =
        t.face? n from h t.entries t
  intro es
  induction es with
  | nil => exact fun _ => rfl
  | cons e es ih => exact fun t => (ih _).trans (face?_updateSlot ..)

theorem getElem?_register (h : t.register id = .ok (n, t')) (k : Nat) :
    t'.registrations[k]? = if k = n then some ⟨id, true, .waiting⟩ else t.registrations[k]? := by
  unfold register at h
  split at h
  · cases h
  · cases h
    by_cases hk : k = t.registrations.length
    · simp [hk]
    · rw [if_neg hk, List.getElem?_append]
      split
      · rfl
      next hge =>
        rw [List.getElem?_eq_none (by simp; omega), List.getElem?_eq_none (by omega)]

theorem face?_register (h : t.register id = .ok (n, t')) (k : Nat) :
    t'.face? k = if k = n then some (id, true) else t.face? k := by
  unfold face?
  rw [getElem?_register h]
  split <;> rfl

theorem slot?_register (h : t.register id = .ok (n, t')) (k : Nat) :
    t'.slot? k = if k = n then some .waiting else t.slot? k := by
  unfold slot?
  rw [getElem?_register h]
  split <;> rfl

/-- A registration gets a new number, the next one. -/
theorem length_register {t t' : PendingTable} {id : String} {n : Nat}
    (h : t.register id = .ok (n, t')) :
    n = t.registrations.length ∧ t'.registrations.length = n + 1 := by
  unfold register at h
  split at h <;> cases h
  exact ⟨rfl, List.length_append⟩

theorem lt_length_of_face? {t : PendingTable} {n : Nat} {f : String × Bool}
    (h : t.face? n = some f) : n < t.registrations.length := by
  obtain ⟨r, hr, -⟩ := Option.map_eq_some_iff.1 h
  exact (List.getElem?_eq_some_iff.1 hr).1

/-- The guard of a registration is gone. -/
def unguard (t : PendingTable) (n : Nat) : PendingTable :=
  { t with registrations := t.registrations.modify n ({ · with guarded := false }) }

theorem face?_unguard (t : PendingTable) (n k : Nat) :
    (t.unguard n).face? k = if n = k then (t.face? k).map fun f => (f.1, false) else t.face? k := by
  by_cases h : n = k <;> simp [unguard, face?, h, Function.comp_def]

@[simp] theorem slot?_unguard (t : PendingTable) (n k : Nat) : (t.unguard n).slot? k = t.slot? k := by
  by_cases h : n = k <;> simp [unguard, slot?, h, Function.comp_def]

/-- A guard removes what stands under its id. -/
theorem dropGuard_of_guarded (h : t.face? n = some (id, true)) :
    t.dropGuard n = (t.remove id).2.unguard n := by
  obtain ⟨r, hr, heq⟩ := Option.map_eq_some_iff.1 h
  obtain ⟨rfl, hg⟩ := Prod.mk.inj heq
  unfold dropGuard
  rw [hr]
  exact if_pos hg

theorem dropGuard_of_not_guarded (h : ∀ id, t.face? n ≠ some (id, true)) :
    t.dropGuard n = t := by
  unfold dropGuard
  split
  next r hr =>
    have hg : r.guarded ≠ true := fun hg => h r.id (by simp [face?, hr, hg])
    exact if_neg hg
  next => rfl

theorem face?_dropGuard (t : PendingTable) (n k : Nat) : (t.dropGuard n).face? k =
    if n = k then (t.face? k).map fun f => (f.1, false) else t.face? k := by
  by_cases hn : ∃ id, t.face? n = some (id, true)
  · obtain ⟨id, hn⟩ := hn
    rw [dropGuard_of_guarded hn, face?_unguard, remove, face?_close]
  · rw [dropGuard_of_not_guarded (not_exists.1 hn)]
    split
    next hk =>
      subst hk
      cases hf : t.face? n with
      | none => rfl
      | some f =>
        obtain ⟨id, g⟩ := f
        cases g with
        | false => rfl
        | true => exact absurd ⟨id, hf⟩ hn
    next => rfl

/-- The operation makes the registration with the number. -/
def Adds (t : PendingTable) (op : Op) (id : String) (n : Nat) : Prop :=
  op = .register id ∧ t.find? id = none ∧ n = t.registrations.length

theorem adds_of_register (h : t.register id = .ok (n, t')) : t.Adds (.register id) id n := by
  refine ⟨rfl, ?_, (length_register h).1⟩
  have hfree : ¬ t.contains id = true := fun hopen => by simp [register, hopen] at h
  simpa [contains_eq_isSome] using hfree

theorem register_of_free (h : t.find? id = none) :
    ∃ t', t.register id = .ok (t.registrations.length, t') := by
  have hfree : t.contains id = false := by rw [contains_eq_isSome, h]; rfl
  simp [register, hfree]

theorem face?_of_step (h : (t.step op).1.face? n = some (id, g)) :
    (∃ g', t.face? n = some (id, g') ∧ (g = true → g' = true)) ∨ t.Adds op id n := by
  have hkept (hsame : (t.step op).1.face? n = t.face? n) :
      ∃ g', t.face? n = some (id, g') ∧ (g = true → g' = true) :=
    ⟨g, hsame ▸ h, fun hg => hg⟩
  cases op with
  | register id' =>
    cases hr : t.register id' with
    | error failure => exact .inl (hkept (by simp only [step, hr]))
    | ok p =>
      obtain ⟨m, t'⟩ := p
      simp only [step, hr, face?_register hr] at h
      split at h
      next hm =>
        subst hm
        cases h
        exact .inr (adds_of_register hr)
      next => exact .inl ⟨g, h, fun hg => hg⟩
  | resolve id' outcome => exact .inl (hkept (face?_close ..))
  | failAll failure => exact .inl (hkept (face?_failAll ..))
  | remove id' => exact .inl (hkept (face?_close ..))
  | contains id' => exact .inl (hkept rfl)
  | dropGuard m =>
    simp only [step, face?_dropGuard] at h
    split at h
    next =>
      obtain ⟨⟨id', g'⟩, hf, heq⟩ := Option.map_eq_some_iff.1 h
      obtain ⟨rfl, rfl⟩ := Prod.mk.inj heq
      exact .inl ⟨g', hf, fun hg => absurd hg Bool.false_ne_true⟩
    next => exact .inl ⟨g, h, fun hg => hg⟩
  | dropReceiver m => exact .inl (hkept (face?_updateSlot ..))
  | poll m => exact .inl (hkept (face?_updateSlot ..))

/-- A receiver is told what is in its slot. -/
@[simp] theorem answer_poll (t : PendingTable) (n : Nat) :
    (t.step (.poll n)).2 = (t.slot? n).elim .none .polled := rfl

theorem entries_dropGuard (h : t.face? n = some (id, true)) :
    (t.dropGuard n).entries = t.entries.filter (·.1 != id) := by
  rw [dropGuard_of_guarded h]
  exact entries_close ..

theorem find?_of_filter {id' : String} (h : t'.entries = t.entries.filter (·.1 != id'))
    (hf : t'.find? id = some n) : t.find? id = some n := by
  rw [find?, h, lookup_filter_ne] at hf
  split at hf
  · cases hf
  · exact hf

theorem find?_of_step (h : (t.step op).1.find? id = some n) :
    t.find? id = some n ∨ t.Adds op id n := by
  cases op with
  | register id' =>
    cases hr : t.register id' with
    | error failure =>
      simp only [step, hr] at h
      exact .inl h
    | ok p =>
      obtain ⟨m, t'⟩ := p
      simp only [step, hr, find?_register hr] at h
      split at h
      next hid =>
        subst hid
        cases h
        exact .inr (adds_of_register hr)
      next => exact .inl h
  | resolve id' outcome | remove id' => exact .inl (find?_of_filter (entries_close ..) h)
  | failAll failure => simp [step, failAll, find?] at h
  | dropGuard m =>
    by_cases hm : ∃ id', t.face? m = some (id', true)
    · obtain ⟨id', hm⟩ := hm
      exact .inl (find?_of_filter (entries_dropGuard hm) h)
    · rw [step, dropGuard_of_not_guarded (not_exists.1 hm)] at h
      exact .inl h
  | contains id' | dropReceiver m | poll m => exact .inl h

end DuplexRpc.PendingTable
