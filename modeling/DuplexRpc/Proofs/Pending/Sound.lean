import DuplexRpc.Pending

/-!
The invariant of the table of waiting calls. No id is open twice, and what is open under an id is a
registration of that id that is still guarded and has got nothing yet. So no two ids share a
registration, and what is done about one id leaves every other registration alone.
-/
namespace DuplexRpc

/-- Nothing has been put into the slot, and it has not been given up by the table. -/
def Slot.isOpen : Slot → Bool
  | waiting | dropped => true
  | answered _ | closed => false

@[simp] theorem Slot.deliver_deliver (o : Outcome) (s : Slot) :
    (s.deliver o).deliver o = s.deliver o := by
  cases s <;> rfl

theorem Slot.isOpen_take {s : Slot} (h : s.isOpen = true) : s.take.isOpen = true := by
  cases s <;> simp_all [isOpen, take]

namespace PendingTable

/-- The registration with a number is open under an id. -/
def OpenAs (t : PendingTable) (id : String) (n : Nat) : Prop :=
  ∃ r, t.registrations[n]? = some r ∧ r.id = id ∧ r.guarded = true ∧ r.slot.isOpen = true

structure Sound (t : PendingTable) : Prop where
  distinct : (t.entries.map (·.1)).Nodup
  owned : ∀ e ∈ t.entries, t.OpenAs e.1 e.2

theorem OpenAs.id_unique {t : PendingTable} {id id' : String} {n : Nat} (h : t.OpenAs id n)
    (h' : t.OpenAs id' n) : id = id' := by
  obtain ⟨r, hr, rfl, -⟩ := h
  obtain ⟨r', hr', rfl, -⟩ := h'
  rw [hr] at hr'
  cases hr'
  rfl

theorem mem_of_find? {t : PendingTable} {id : String} {n : Nat} (h : t.find? id = some n) :
    (id, n) ∈ t.entries := by
  obtain ⟨l₁, l₂, he, -⟩ := List.lookup_eq_some_iff.1 h
  simp [he]

theorem lookup_of_mem {entries : List (String × Nat)} (hd : (entries.map (·.1)).Nodup)
    {id : String} {n : Nat} (he : (id, n) ∈ entries) : entries.lookup id = some n := by
  induction entries with
  | nil => simp at he
  | cons e es ih =>
    obtain ⟨k, m⟩ := e
    simp only [List.map_cons, List.nodup_cons] at hd
    rcases List.mem_cons.1 he with heq | hmem
    · cases heq
      simp
    · have hne : id ≠ k := fun hk => hd.1 (hk ▸ List.mem_map_of_mem hmem)
      simpa [List.lookup_cons, beq_eq_false_iff_ne.2 hne] using ih hd.2 hmem

theorem Sound.find?_eq_some_iff {t : PendingTable} (h : t.Sound) {id : String} {n : Nat} :
    t.find? id = some n ↔ (id, n) ∈ t.entries :=
  ⟨mem_of_find?, lookup_of_mem h.distinct⟩

theorem Sound.openAs {t : PendingTable} (h : t.Sound) {id : String} {n : Nat}
    (hf : t.find? id = some n) : t.OpenAs id n :=
  h.owned _ (mem_of_find? hf)

/-- No two ids share a registration. -/
theorem Sound.find?_injective {t : PendingTable} (h : t.Sound) {id id' : String} {n : Nat}
    (hf : t.find? id = some n) (hf' : t.find? id' = some n) : id = id' :=
  (h.openAs hf).id_unique (h.openAs hf')

@[simp] theorem slot?_close (t : PendingTable) (id : String) (f : Slot → Slot) (k : Nat) :
    (t.close id f).2.slot? k = if t.find? id = some k then (t.slot? k).map f else t.slot? k := by
  unfold close
  split
  · next n hn =>
    rw [hn]
    simpa [slot?, updateSlot] using slot?_updateSlot t n k f
  · next hn => simp [hn]

@[simp] theorem slot?_resolve (t : PendingTable) (id : String) (o : Outcome) (k : Nat) :
    (t.resolve id o).2.slot? k =
      if t.find? id = some k then (t.slot? k).map (·.deliver o) else t.slot? k :=
  slot?_close t id _ k

theorem slot?_foldl_deliver (o : Outcome) (es : List (String × Nat)) (t : PendingTable) (k : Nat) :
    (es.foldl (fun t (_, n) => t.updateSlot n (·.deliver o)) t).slot? k =
      if k ∈ es.map (·.2) then (t.slot? k).map (·.deliver o) else t.slot? k := by
  induction es generalizing t with
  | nil => simp
  | cons e es ih =>
    rw [List.foldl_cons, ih, slot?_updateSlot]
    by_cases hk : k = e.2
    · subst hk
      by_cases hm : e.2 ∈ es.map (·.2)
      · simp only [hm, List.map_cons, List.mem_cons, or_true, ↓reduceIte, Option.map_map]
        congr 1
        exact funext fun s => s.deliver_deliver o
      · simp only [hm, List.map_cons, List.mem_cons, true_or, ↓reduceIte]
    · simp only [List.map_cons, List.mem_cons, hk, Ne.symm hk, false_or, ↓reduceIte]

/-- A wholesale failure reaches exactly the registrations that are open under some id. -/
@[simp] theorem slot?_failAll (t : PendingTable) (failure : Failure) (k : Nat) :
    (t.failAll failure).2.slot? k =
      if k ∈ t.entries.map (·.2) then (t.slot? k).map (·.deliver (.error failure))
      else t.slot? k := by
  simpa [failAll, slot?] using slot?_foldl_deliver (.error failure) t.entries t k

theorem registrations_updateSlot (t : PendingTable) (m : Nat) (f : Slot → Slot) (n : Nat) :
    (t.updateSlot m f).registrations[n]? =
      if m = n then (t.registrations[n]?).map fun r => { r with slot := f r.slot }
      else t.registrations[n]? := by
  by_cases h : m = n <;> simp [updateSlot, h]

theorem OpenAs.updateSlot_of_ne {t : PendingTable} {id : String} {m n : Nat} (h : t.OpenAs id n)
    (hne : m ≠ n) (f : Slot → Slot) : (t.updateSlot m f).OpenAs id n := by
  obtain ⟨r, hr, hid⟩ := h
  refine ⟨r, ?_, hid⟩
  rw [registrations_updateSlot, if_neg hne, hr]

theorem OpenAs.updateSlot {t : PendingTable} {id : String} {n : Nat} (h : t.OpenAs id n) (m : Nat)
    {f : Slot → Slot} (hf : ∀ s, s.isOpen = true → (f s).isOpen = true) :
    (t.updateSlot m f).OpenAs id n := by
  by_cases hm : m = n
  · obtain ⟨r, hr, hid, hg, hs⟩ := h
    refine ⟨{ r with slot := f r.slot }, ?_, hid, hg, hf _ hs⟩
    rw [registrations_updateSlot, if_pos hm, hr]
    rfl
  · exact h.updateSlot_of_ne hm f

theorem entries_close (t : PendingTable) (id : String) (f : Slot → Slot) :
    (t.close id f).2.entries = t.entries.filter (·.1 != id) := by
  unfold close
  split
  · rfl
  next hnone =>
    refine (List.filter_eq_self.2 fun e he => ?_).symm
    simpa [bne_iff_ne, ne_comm] using List.lookup_eq_none_iff.1 hnone e he

theorem mem_entries_close {t : PendingTable} {id : String} {f : Slot → Slot} {e : String × Nat} :
    e ∈ (t.close id f).2.entries ↔ e ∈ t.entries ∧ e.1 ≠ id := by
  rw [entries_close, List.mem_filter, bne_iff_ne]

theorem OpenAs.close_of_ne {t : PendingTable} {id id' : String} {n : Nat} (h : t.OpenAs id' n)
    (hne : t.find? id ≠ some n) (f : Slot → Slot) : (t.close id f).2.OpenAs id' n := by
  unfold PendingTable.close
  split
  next m hm => exact h.updateSlot_of_ne (fun hmn => hne (hmn ▸ hm)) f
  next => exact h

theorem Sound.empty : PendingTable.empty.Sound :=
  ⟨List.nodup_nil, by simp [PendingTable.empty]⟩

theorem Sound.register {t t' : PendingTable} (h : t.Sound) {id : String} {n : Nat}
    (hr : t.register id = .ok (n, t')) : t'.Sound := by
  unfold PendingTable.register at hr
  split at hr
  · cases hr
  next hc =>
    cases hr
    have hnew : id ∉ t.entries.map (·.1) := by simpa [contains] using hc
    constructor
    · exact List.nodup_cons.2 ⟨hnew, h.distinct⟩
    · intro e he
      rcases List.mem_cons.1 he with rfl | he
      · exact ⟨⟨id, true, .waiting⟩, by simp, rfl, rfl, rfl⟩
      · obtain ⟨r, hr, hrest⟩ := h.owned e he
        have hlt := (List.getElem?_eq_some_iff.1 hr).1
        exact ⟨r, by rw [List.getElem?_append_left hlt, hr], hrest⟩

/-- What a close leaves belongs to other registrations. -/
theorem Sound.close {t : PendingTable} (h : t.Sound) (id : String) (f : Slot → Slot) :
    (t.close id f).2.Sound := by
  constructor
  · rw [entries_close]
    exact h.distinct.sublist (List.filter_sublist.map _)
  · intro e he
    obtain ⟨hmem, hne⟩ := mem_entries_close.1 he
    exact (h.owned e hmem).close_of_ne
      (fun hf => hne ((h.owned e hmem).id_unique (h.openAs hf))) f

theorem Sound.failAll (t : PendingTable) (failure : Failure) : (t.failAll failure).2.Sound :=
  ⟨List.nodup_nil, by simp [PendingTable.failAll]⟩

/-- A dropped guard clears its id, so no entry is left for its registration. -/
theorem Sound.dropGuard {t : PendingTable} (h : t.Sound) (n : Nat) : (t.dropGuard n).Sound := by
  unfold PendingTable.dropGuard
  split
  next r hr =>
    split
    next =>
      have hs := h.close r.id (·.abandon)
      refine ⟨hs.distinct, fun e he => ?_⟩
      obtain ⟨hmem, hne⟩ := mem_entries_close.1 he
      have howner : n ≠ e.2 := by
        rintro rfl
        obtain ⟨r', hr', hid, -⟩ := h.owned e hmem
        rw [hr] at hr'
        cases hr'
        exact hne hid.symm
      obtain ⟨r', hr', hrest⟩ := hs.owned e he
      exact ⟨r', by simpa [howner, remove] using hr', hrest⟩
    next => exact h
  next => exact h

theorem Sound.updateSlot {t : PendingTable} (h : t.Sound) (n : Nat) {f : Slot → Slot}
    (hf : ∀ s, s.isOpen = true → (f s).isOpen = true) : (t.updateSlot n f).Sound :=
  ⟨h.distinct, fun e he => (h.owned e he).updateSlot n hf⟩

theorem Sound.step {t : PendingTable} (h : t.Sound) (op : Op) : (t.step op).1.Sound := by
  cases op with
  | register id =>
    simp only [PendingTable.step]
    split
    next n t' hr => exact h.register hr
    next => exact h
  | resolve id outcome => exact h.close id _
  | failAll failure => exact Sound.failAll t failure
  | remove id => exact h.close id _
  | contains id => exact h
  | dropGuard n => exact h.dropGuard n
  | dropReceiver n => exact h.updateSlot n (f := fun _ => .dropped) fun _ _ => rfl
  | poll n => exact h.updateSlot n fun _ => Slot.isOpen_take

/-- However a table has come about, it is sound. -/
theorem sound_run (ops : List Op) : (PendingTable.empty.run ops).Sound := by
  suffices h : ∀ t : PendingTable, t.Sound → (t.run ops).Sound from h _ Sound.empty
  induction ops with
  | nil => exact fun t h => h
  | cons op ops ih => exact fun t h => ih _ (h.step op)

end PendingTable
end DuplexRpc
