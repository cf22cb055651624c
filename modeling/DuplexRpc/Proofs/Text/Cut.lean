import DuplexRpc.Text.Cut

/-!
Where a text is cut. A cut is made at the first place at which the separator stands, and none is
made only if it stands nowhere.
-/
namespace DuplexRpc.Text

variable {α : Type _} {x : α} {sep s before after : List α}

/-- A list in two parts, around the first place at which the separator stands. -/
structure FirstCut (sep s before after : List α) : Prop where
  eq : s = before ++ sep ++ after
  first : ∀ before' after', s = before' ++ sep ++ after' → before.length ≤ before'.length

/-- A separator stands nowhere earlier if its first character does not. -/
theorem FirstCut.of_not_mem {xs : List α} (h : x ∉ before) (after : List α) :
    FirstCut (x :: xs) (before ++ x :: xs ++ after) before after := by
  refine ⟨rfl, fun before' after' hs => ?_⟩
  induction before generalizing before' with
  | nil => exact Nat.zero_le _
  | cons y ys ih =>
    obtain ⟨hy, hys⟩ := not_or.1 (mt List.mem_cons.2 h)
    cases before' with
    | nil => exact absurd (List.cons.inj hs).1.symm hy
    | cons z zs => exact Nat.succ_le_succ (ih hys zs (List.cons.inj hs).2)

theorem FirstCut.unique {before' after' : List α} (h : FirstCut sep s before after)
    (h' : FirstCut sep s before' after') : before = before' ∧ after = after' := by
  have hlength := Nat.le_antisymm (h.first _ _ h'.eq) (h'.first _ _ h.eq)
  have hs := h.eq.symm.trans h'.eq
  rw [List.append_assoc, List.append_assoc] at hs
  obtain ⟨hbefore, hrest⟩ := List.append_inj hs hlength
  exact ⟨hbefore, List.append_cancel_left hrest⟩

variable [DecidableEq α]

theorem FirstCut.of_cut? (h : cut? sep s = some (before, after)) :
    FirstCut sep s before after := by
  refine ⟨eq_of_cut? h, fun before' after' hs => ?_⟩
  induction s generalizing before before' with
  | nil =>
    obtain ⟨r, -, he⟩ := Option.map_eq_some_iff.1 h
    cases he
    exact Nat.zero_le _
  | cons c cs ih =>
    rw [cut?] at h
    split at h
    · cases h
      exact Nat.zero_le _
    next hnone =>
      obtain ⟨⟨b, a⟩, hb, he⟩ := Option.map_eq_some_iff.1 h
      cases he
      cases before' with
      | nil =>
        have hstrip : strip? sep (c :: cs) = some after' := strip?_eq_some_iff.2 hs
        rw [hstrip] at hnone
        cases hnone
      | cons y ys => exact Nat.succ_le_succ (ih hb ys (List.cons.inj hs).2)

theorem cut?_of_strip? {rest : List α} (h : strip? sep s = some rest) :
    cut? sep s = some ([], rest) := by
  cases s <;> simp [cut?, h]

theorem isSome_cut?_append (sep before after : List α) :
    (cut? sep (before ++ sep ++ after)).isSome := by
  induction before with
  | nil =>
    rw [List.nil_append, cut?_of_strip? (strip?_eq_some_iff.2 rfl)]
    rfl
  | cons x xs ih =>
    rw [List.cons_append, List.cons_append, cut?]
    split
    · rfl
    · rwa [Option.isSome_map]

theorem cut?_eq_none_iff : cut? sep s = none ↔ ∀ before after, s ≠ before ++ sep ++ after := by
  constructor
  · rintro h before after rfl
    have hsome := isSome_cut?_append sep before after
    rw [h] at hsome
    cases hsome
  · intro h
    cases hc : cut? sep s with
    | none => rfl
    | some p => exact absurd (eq_of_cut? hc) (h p.1 p.2)

theorem cut?_eq_some_iff : cut? sep s = some (before, after) ↔ FirstCut sep s before after := by
  refine ⟨.of_cut?, fun h => ?_⟩
  have hsome := isSome_cut?_append sep before after
  rw [← h.eq] at hsome
  obtain ⟨⟨b, a⟩, hcut⟩ := Option.isSome_iff_exists.1 hsome
  obtain ⟨rfl, rfl⟩ := h.unique (.of_cut? hcut)
  exact hcut

theorem cut?_singleton_eq_some_iff :
    cut? [x] s = some (before, after) ↔ s = before ++ x :: after ∧ x ∉ before := by
  rw [cut?_eq_some_iff]
  constructor
  · rintro ⟨rfl, hfirst⟩
    refine ⟨by simp, fun hmem => ?_⟩
    obtain ⟨b, a, rfl⟩ := List.append_of_mem hmem
    have hle := hfirst b (a ++ [x] ++ after) (by simp)
    rw [List.length_append, List.length_cons] at hle
    omega
  · rintro ⟨rfl, h⟩
    simpa using (FirstCut.of_not_mem h after : FirstCut [x] _ before after)

end DuplexRpc.Text
