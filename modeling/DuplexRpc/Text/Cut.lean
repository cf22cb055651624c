/-!
Cutting a text in two at a separator. `cut?` takes the first place at which the separator stands,
`cutLast?` the last one.
-/
namespace DuplexRpc.Text

variable {α : Type _} [DecidableEq α]

/-- `some rest` if the list begins with the separator. -/
def strip? : List α → List α → Option (List α)
  | [], s => some s
  | _ :: _, [] => none
  | x :: xs, y :: ys => if x = y then strip? xs ys else none

theorem strip?_eq_some_iff {sep s rest : List α} : strip? sep s = some rest ↔ s = sep ++ rest := by
  induction sep generalizing s with
  | nil => simp [strip?, eq_comm]
  | cons x xs ih =>
    cases s with
    | nil => simp [strip?]
    | cons y ys =>
      by_cases h : x = y
      · simp [strip?, h, ih]
      · simp [strip?, h, Ne.symm h]

def cut? (sep : List α) : List α → Option (List α × List α)
  | [] => (strip? sep []).map ([], ·)
  | c :: cs =>
    match strip? sep (c :: cs) with
    | some rest => some ([], rest)
    | none => (cut? sep cs).map fun (before, after) => (c :: before, after)

theorem eq_of_cut? {sep s before after : List α} (h : cut? sep s = some (before, after)) :
    s = before ++ sep ++ after := by
  induction s generalizing before with
  | nil =>
    obtain ⟨r, hr, he⟩ := Option.map_eq_some_iff.1 h
    obtain ⟨rfl, rfl⟩ := Prod.mk.inj he
    simpa using strip?_eq_some_iff.1 hr
  | cons c cs ih =>
    rw [cut?] at h
    split at h
    · next rest hr =>
      obtain ⟨rfl, rfl⟩ := Prod.mk.inj (Option.some.inj h)
      simpa using strip?_eq_some_iff.1 hr
    · obtain ⟨⟨b, a⟩, hb, he⟩ := Option.map_eq_some_iff.1 h
      obtain ⟨rfl, rfl⟩ := Prod.mk.inj he
      simp [ih hb]

def cutLast? (sep : α) : List α → Option (List α × List α)
  | [] => none
  | c :: cs =>
    match cutLast? sep cs with
    | some (before, after) => some (c :: before, after)
    | none => if c = sep then some ([], cs) else none

theorem cutLast?_eq_none_iff {sep : α} {s : List α} : cutLast? sep s = none ↔ sep ∉ s := by
  induction s with
  | nil => simp [cutLast?]
  | cons c cs ih =>
    rw [cutLast?]
    split
    · next h =>
      have : sep ∈ cs := Decidable.byContradiction fun hn => by simp [ih.2 hn] at h
      simp [this]
    · next h =>
      have := ih.1 h
      by_cases hc : c = sep
      · simp [hc]
      · simp [hc, this, Ne.symm hc]

theorem cutLast?_eq_some_iff {sep : α} {s before after : List α} :
    cutLast? sep s = some (before, after) ↔ s = before ++ sep :: after ∧ sep ∉ after := by
  induction s generalizing before with
  | nil => simp [cutLast?]
  | cons c cs ih =>
    rw [cutLast?]
    cases hl : cutLast? sep cs with
    | some p =>
      obtain ⟨b, a⟩ := p
      cases before with
      | nil =>
        have : ¬sep ∉ cs := fun hn => by simp [cutLast?_eq_none_iff.2 hn] at hl
        simp only [Option.some.injEq, Prod.mk.injEq, reduceCtorEq, false_and, List.nil_append,
          List.cons.injEq, false_iff, not_and]
        rintro ⟨rfl, rfl⟩
        exact this
      | cons x xs =>
        have := @ih xs
        rw [hl] at this
        simp only [Option.some.injEq, Prod.mk.injEq, List.cons.injEq, List.cons_append] at this ⊢
        grind
    | none =>
      have hn := cutLast?_eq_none_iff.1 hl
      by_cases hc : c = sep
      · subst hc
        cases before with
        | nil => simp +contextual [eq_comm, hn]
        | cons x xs =>
          simp only [if_pos, Option.some.injEq, Prod.mk.injEq, reduceCtorEq, false_and,
            List.cons_append, List.cons.injEq, false_iff, not_and]
          rintro ⟨rfl, rfl⟩
          simp at hn
      · cases before with
        | nil => simp [hc]
        | cons x xs =>
          simp only [if_neg hc, reduceCtorEq, List.cons_append, List.cons.injEq, false_iff,
            not_and]
          rintro ⟨rfl, rfl⟩
          simp at hn

end DuplexRpc.Text
