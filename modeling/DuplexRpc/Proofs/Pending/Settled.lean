import DuplexRpc.Proofs.Pending.Sound

/-!
How registrations come to an end. Each keeps its number; a call that waits is in the table, and one
that no longer waits never waits again. So a wholesale failure ends every wait begun before it.
-/
namespace DuplexRpc

theorem Slot.deliver_ne_waiting (outcome : Outcome) (s : Slot) : s.deliver outcome ≠ .waiting := by
  cases s <;> simp [Slot.deliver]

theorem Slot.abandon_ne_waiting (s : Slot) : s.abandon ≠ .waiting := by
  cases s <;> simp [Slot.abandon]

theorem Slot.take_eq_waiting {s : Slot} (h : s.take = .waiting) : s = .waiting := by
  cases s <;> simp_all [Slot.take]

namespace PendingTable

/-- The operations lead from one table to the other. -/
def Leads (t t' : PendingTable) : Prop := ∃ ops, t.run ops = t'

theorem Leads.refl (t : PendingTable) : t.Leads t := ⟨[], rfl⟩

theorem Leads.op (t : PendingTable) (op : Op) : t.Leads (t.step op).1 := ⟨[op], rfl⟩

theorem Leads.trans {t₁ t₂ t₃ : PendingTable} (h : t₁.Leads t₂) (h' : t₂.Leads t₃) :
    t₁.Leads t₃ := by
  obtain ⟨ops, rfl⟩ := h
  obtain ⟨ops', rfl⟩ := h'
  exact ⟨ops ++ ops', List.foldl_append⟩

/-- What holds of a table and is kept by every operation holds of all that it leads to. -/
theorem Leads.induct {P : PendingTable → Prop} (hstep : ∀ t op, P t → P (t.step op).1)
    {t t' : PendingTable} (h : t.Leads t') (ht : P t) : P t' := by
  obtain ⟨ops, rfl⟩ := h
  unfold run
  induction ops generalizing t with
  | nil => exact ht
  | cons op ops ih => exact ih (hstep t op ht)

/-- Every registration that waits is in the table. -/
def Listed (t : PendingTable) : Prop :=
  ∀ n, t.slot? n = some .waiting → n ∈ t.entries.map (·.2)

/-- The registrations with the first numbers no longer wait. -/
def SettledBelow (k : Nat) (t : PendingTable) : Prop :=
  k ≤ t.registrations.length ∧ ∀ n < k, t.slot? n ≠ some .waiting

@[simp] theorem length_updateSlot (t : PendingTable) (n : Nat) (f : Slot → Slot) :
    (t.updateSlot n f).registrations.length = t.registrations.length := by
  simp [updateSlot]

theorem length_close (t : PendingTable) (id : String) (f : Slot → Slot) :
    (t.close id f).2.registrations.length = t.registrations.length := by
  unfold close
  split
  · exact length_updateSlot ..
  · rfl

@[simp] theorem length_failAll (t : PendingTable) (failure : Failure) :
    (t.failAll failure).2.registrations.length = t.registrations.length := by
  suffices h : ∀ (es : List (String × Nat)) (t : PendingTable),
      (es.foldl (fun t e => t.updateSlot e.2 (·.deliver (.error failure)))
        t).registrations.length = t.registrations.length from h t.entries t
  intro es
  induction es with
  | nil => exact fun _ => rfl
  | cons e es ih => exact fun t => (ih _).trans (length_updateSlot ..)

theorem register_cases (t : PendingTable) (id : String) :
    (t.step (.register id)).1 = t ∨ (t.step (.register id)).1 =
      ⟨(id, t.registrations.length) :: t.entries, t.registrations ++ [⟨id, true, .waiting⟩]⟩ := by
  unfold step register
  by_cases hc : t.contains id = true
  · exact .inl (by simp [hc])
  · exact .inr (by simp [hc])

/-- Dropping a guard is a removal, unless it changes nothing. -/
theorem dropGuard_cases (t : PendingTable) (n : Nat) :
    t.dropGuard n = t ∨ ∃ id, (t.dropGuard n).entries = (t.remove id).2.entries ∧
      (t.dropGuard n).registrations.length = (t.remove id).2.registrations.length ∧
      ∀ k, (t.dropGuard n).slot? k = (t.remove id).2.slot? k := by
  unfold dropGuard
  split
  next r hr =>
    split
    · refine .inr ⟨r.id, rfl, List.length_modify .., fun k => ?_⟩
      by_cases hk : n = k <;> simp [slot?, hk, Function.comp_def]
    · exact .inl rfl
  next => exact .inl rfl

theorem length_step (t : PendingTable) (op : Op) :
    t.registrations.length ≤ (t.step op).1.registrations.length := by
  cases op with
  | register id =>
    rcases register_cases t id with h | h <;> simp [h]
  | resolve id outcome => exact Nat.le_of_eq (length_close t id _).symm
  | failAll failure => exact Nat.le_of_eq (length_failAll t failure).symm
  | remove id => exact Nat.le_of_eq (length_close t id _).symm
  | contains id => exact Nat.le_refl _
  | dropGuard n =>
    rcases dropGuard_cases t n with h | ⟨id, -, h, -⟩
    · exact Nat.le_of_eq (by simp only [step, h])
    · exact Nat.le_of_eq (h.trans (length_close t id _)).symm
  | dropReceiver n => exact Nat.le_of_eq (length_updateSlot t n _).symm
  | poll n => exact Nat.le_of_eq (length_updateSlot t n _).symm

theorem waiting_updateSlot {t : PendingTable} {f : Slot → Slot}
    (hf : ∀ s, f s = .waiting → s = .waiting) {n k : Nat}
    (h : (t.updateSlot n f).slot? k = some .waiting) : t.slot? k = some .waiting := by
  rw [slot?_updateSlot] at h
  split at h
  · obtain ⟨s, hs, hfs⟩ := Option.map_eq_some_iff.1 h
    rw [hs, hf s hfs]
  · exact h

theorem waiting_close {t : PendingTable} {id : String} {f : Slot → Slot} (hf : ∀ s, f s ≠ .waiting)
    {k : Nat} (h : (t.close id f).2.slot? k = some .waiting) :
    t.slot? k = some .waiting ∧ t.find? id ≠ some k := by
  rw [slot?_close] at h
  split at h
  · obtain ⟨s, -, hfs⟩ := Option.map_eq_some_iff.1 h
    exact absurd hfs (hf s)
  next hne => exact ⟨h, hne⟩

theorem waiting_failAll {t : PendingTable} {failure : Failure} {k : Nat}
    (h : (t.failAll failure).2.slot? k = some .waiting) :
    t.slot? k = some .waiting ∧ k ∉ t.entries.map (·.2) := by
  rw [slot?_failAll] at h
  split at h
  · obtain ⟨s, -, hs⟩ := Option.map_eq_some_iff.1 h
    cases s <;> cases hs
  next hne => exact ⟨h, hne⟩

theorem waiting_step {t : PendingTable} {op : Op} {k : Nat} (hk : k < t.registrations.length)
    (h : (t.step op).1.slot? k = some .waiting) : t.slot? k = some .waiting := by
  cases op with
  | register id =>
    rcases register_cases t id with heq | heq
    · exact heq ▸ h
    · rw [heq] at h
      simpa [slot?, List.getElem?_append_left hk] using h
  | resolve id outcome => exact (waiting_close (Slot.deliver_ne_waiting outcome) h).1
  | failAll failure => exact (waiting_failAll h).1
  | remove id => exact (waiting_close Slot.abandon_ne_waiting h).1
  | contains id => exact h
  | dropGuard n =>
    rcases dropGuard_cases t n with heq | ⟨id, -, -, heq⟩
    · exact heq ▸ h
    · exact (waiting_close Slot.abandon_ne_waiting ((heq k).symm.trans h)).1
  | dropReceiver n => exact waiting_updateSlot (fun _ hs => by cases hs) h
  | poll n => exact waiting_updateSlot (fun _ => Slot.take_eq_waiting) h

theorem SettledBelow.mono {k m : Nat} {t : PendingTable} (h : SettledBelow m t) (hk : k ≤ m) :
    SettledBelow k t :=
  ⟨Nat.le_trans hk h.1, fun n hn => h.2 n (Nat.lt_of_lt_of_le hn hk)⟩

theorem SettledBelow.step {k : Nat} {t : PendingTable} (op : Op) (h : SettledBelow k t) :
    SettledBelow k (t.step op).1 :=
  ⟨Nat.le_trans h.1 (length_step t op),
    fun n hn hw => h.2 n hn (waiting_step (Nat.lt_of_lt_of_le hn h.1) hw)⟩

theorem Listed.close {t : PendingTable} (h : t.Listed) (hs : t.Sound) (id : String)
    {f : Slot → Slot} (hf : ∀ s, f s ≠ .waiting) : (t.close id f).2.Listed := by
  intro n hw
  obtain ⟨hw, hne⟩ := waiting_close hf hw
  obtain ⟨⟨k, m⟩, hmem, rfl⟩ := List.mem_map.1 (h n hw)
  have hk : k ≠ id := fun hk => hne (hs.find?_eq_some_iff.2 (hk ▸ hmem))
  exact List.mem_map.2 ⟨(k, m), mem_entries_close.2 ⟨hmem, hk⟩, rfl⟩

theorem Listed.register {t : PendingTable} (h : t.Listed) (id : String) :
    (t.step (.register id)).1.Listed := by
  intro n hw
  rcases register_cases t id with heq | heq
  · rw [heq] at hw ⊢
    exact h n hw
  · rw [heq] at hw ⊢
    rcases Nat.lt_or_ge n t.registrations.length with hn | hn
    · have hold : t.slot? n = some .waiting := by
        simpa [slot?, List.getElem?_append_left hn] using hw
      exact List.mem_cons_of_mem _ (h n hold)
    · obtain ⟨r, hr, -⟩ := Option.map_eq_some_iff.1 hw
      have hlt := (List.getElem?_eq_some_iff.1 hr).1
      have hlast : n = t.registrations.length := by
        simp only [List.length_append, List.length_singleton] at hlt
        omega
      simp [hlast]

theorem Listed.step {t : PendingTable} (hs : t.Sound) (h : t.Listed) (op : Op) :
    (t.step op).1.Listed := by
  intro n hw
  cases op with
  | register id => exact h.register id n hw
  | resolve id outcome => exact h.close hs id (Slot.deliver_ne_waiting outcome) n hw
  | failAll failure =>
    obtain ⟨hw, hne⟩ := waiting_failAll hw
    exact absurd (h n hw) hne
  | remove id => exact h.close hs id Slot.abandon_ne_waiting n hw
  | contains id => exact h n hw
  | dropGuard m =>
    rcases dropGuard_cases t m with heq | ⟨id, hentries, -, hslot⟩
    · rw [PendingTable.step, heq] at hw ⊢
      exact h n hw
    · rw [PendingTable.step, hentries]
      exact h.close hs id Slot.abandon_ne_waiting n ((hslot n).symm.trans hw)
  | dropReceiver m => exact h n (waiting_updateSlot (fun _ hs => by cases hs) hw)
  | poll m => exact h n (waiting_updateSlot (fun _ => Slot.take_eq_waiting) hw)

theorem Leads.length_le {t t' : PendingTable} (h : t.Leads t') :
    t.registrations.length ≤ t'.registrations.length :=
  h.induct (fun t₁ op ht => Nat.le_trans ht (length_step t₁ op)) (Nat.le_refl _)

theorem Leads.settledBelow {t t' : PendingTable} (h : t.Leads t') {k : Nat}
    (ht : SettledBelow k t) : SettledBelow k t' :=
  h.induct (fun _ op => SettledBelow.step op) ht

theorem Leads.sound_listed {t t' : PendingTable} (h : t.Leads t') (ht : t.Sound ∧ t.Listed) :
    t'.Sound ∧ t'.Listed := by
  refine h.induct (P := fun t => t.Sound ∧ t.Listed) (fun t op ht => ?_) ht
  exact ⟨ht.1.step op, ht.2.step ht.1 op⟩

theorem Listed.empty : PendingTable.empty.Listed := fun _ hw => by
  simp [slot?, PendingTable.empty] at hw

theorem failAll_eq_self {t : PendingTable} (h : t.entries = []) (failure : Failure) :
    (t.failAll failure).2 = t := by
  obtain ⟨entries, registrations⟩ := t
  cases h
  rfl

/-- After a wholesale failure nothing waits. -/
theorem Listed.settledBelow_failAll {t : PendingTable} (h : t.Listed) (failure : Failure) :
    SettledBelow t.registrations.length (t.failAll failure).2 := by
  refine ⟨Nat.le_of_eq (length_failAll t failure).symm, fun n _ hw => ?_⟩
  obtain ⟨hw, hne⟩ := waiting_failAll hw
  exact hne (h n hw)

end PendingTable
end DuplexRpc
