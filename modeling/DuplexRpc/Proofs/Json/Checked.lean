import DuplexRpc.Envelope.Strict
import DuplexRpc.Proofs.Json.RoundTrip
import Mathlib.Data.List.Induction

/-!
Checked and unchecked reading. What a checked reading gives is sound, and an unchecked one gives the
same. So a parsed value is not nested deeper than is allowed, and a text that is a value is the same
document to a reader that leaves parts of it unread.
-/
namespace DuplexRpc

namespace Json

/-- If the checked reading gives anything, it is sound and the unchecked reading gives the same. -/
structure Checked {α : Type} (checked unchecked : Except Refusal (α × List Char))
    (sound : α → Bool) : Prop where
  sound : ∀ a rest, checked = .ok (a, rest) → sound a = true
  same : ∀ a rest, checked = .ok (a, rest) → unchecked = .ok (a, rest)

namespace Checked

variable {α β : Type} {checked unchecked : Except Refusal (α × List Char)} {sound : α → Bool}
  {sound' : β → Bool}

theorem error (refusal : Refusal) : Checked (.error refusal) unchecked sound := ⟨nofun, nofun⟩

theorem ok {a : α} (h : sound a = true) (rest : List Char) :
    Checked (.ok (a, rest)) (.ok (a, rest)) sound := by
  constructor
  · rintro _ _ ⟨⟩
    exact h
  · rintro _ _ ⟨⟩
    rfl

/-- The same step before either reading. -/
theorem after {γ : Type} {next next' : γ → Except Refusal (β × List Char)}
    (step : Except Refusal γ) (hnext : ∀ c, step = .ok c → Checked (next c) (next' c) sound') :
    Checked (step >>= next) (step >>= next') sound' := by
  cases step with
  | error refusal => exact .error refusal
  | ok c => exact hnext c rfl

/-- One reading after the other. -/
theorem bind {next next' : α × List Char → Except Refusal (β × List Char)}
    (h : Checked checked unchecked sound)
    (hnext : ∀ a rest, sound a = true → Checked (next (a, rest)) (next' (a, rest)) sound') :
    Checked (checked >>= next) (unchecked >>= next') sound' := by
  cases hread : checked with
  | error refusal => exact .error refusal
  | ok r =>
    rw [h.same _ _ hread]
    exact hnext _ _ (h.sound _ _ hread)

theorem after_map {γ : Type} {f : γ → β × List Char} (step : Except Refusal γ)
    (hf : ∀ c, sound' (f c).1 = true) : Checked (step.map f) (step.map f) sound' := by
  cases step with
  | error refusal => exact .error refusal
  | ok c => exact .ok (hf c) _

theorem map {f : α → β} (h : Checked checked unchecked sound)
    (hf : ∀ a, sound a = true → sound' (f a) = true) :
    Checked (checked.map fun r => (f r.1, r.2)) (unchecked.map fun r => (f r.1, r.2)) sound' := by
  cases hread : checked with
  | error refusal => exact .error refusal
  | ok r =>
    rw [h.same _ _ hread]
    exact .ok (hf _ (h.sound _ _ hread)) _

end Checked

variable (c : Char) (s : List Char)

theorem readNumber_checked (negative : Bool) (depth : Nat) :
    Checked (readNumber true negative s) (readNumber false negative s) (·.isSound depth) := by
  unfold readNumber
  refine .after _ fun r _ => ?_
  obtain ⟨literal, rest⟩ := r
  dsimp only
  split
  · exact .ok rfl rest
  · exact .error _

theorem readCodePoint_checked :
    Checked (readCodePoint true s) (readCodePoint false s) Option.isSome := by
  unfold readCodePoint
  refine .after _ fun r _ => ?_
  obtain ⟨n, rest⟩ := r
  dsimp only
  split
  · exact .error _
  · split
    · split
      · exact .ok rfl _
      · exact .error _
    · exact .ok rfl rest

theorem readChar_checked : Checked (readChar true c s) (readChar false c s) Option.isSome := by
  unfold readChar
  split
  · split
    · exact .error _
    · exact readCodePoint_checked _
    · split
      · exact .ok rfl _
      · exact .error _
  · split
    · exact .error _
    · exact .ok rfl s

theorem readText_checked (fuel : Nat) :
    Checked (readText true fuel s) (readText false fuel s) Option.isSome := by
  induction fuel generalizing s with
  | zero => cases s <;> exact .error _
  | succ fuel ih =>
    cases s with
    | nil => exact .error _
    | cons c s =>
      rw [readText, readText]
      split
      · exact .ok rfl s
      · refine (readChar_checked c s).bind fun c' rest hc => (ih rest).bind fun cs rest hcs => ?_
        obtain ⟨c', rfl⟩ := Option.isSome_iff_exists.1 hc
        obtain ⟨cs, rfl⟩ := Option.isSome_iff_exists.1 hcs
        exact .ok rfl rest

theorem readString_checked : Checked (readString true s) (readString false s) Option.isSome :=
  (readText_checked s s.length).map fun text h => by simpa using h

mutual

theorem readValue_checked : ∀ (fuel depth : Nat) (s : List Char),
    Checked (readValue true fuel depth s) (readValue false fuel depth s) (·.isSound depth)
  | 0, _, _ => .error _
  | fuel + 1, depth, s => by
    unfold readValue
    split
    · exact .error _
    · exact .after_map _ fun _ => rfl
    · exact .after_map _ fun _ => rfl
    · exact .after_map _ fun _ => rfl
    · exact readNumber_checked _ true depth
    · exact (readString_checked _).map fun _ h => h
    · cases depth with
      | zero => exact .error _
      | succ depth => exact (readItems_checked fuel depth true _).map fun _ h => h
    · cases depth with
      | zero => exact .error _
      | succ depth => exact (readMembers_checked fuel depth true _).map fun _ h => h
    · split
      · exact readNumber_checked _ false depth
      · exact .error _

theorem readItems_checked : ∀ (fuel depth : Nat) (first : Bool) (s : List Char),
    Checked (readItems true fuel depth first s) (readItems false fuel depth first s)
      (Document.areSound depth)
  | 0, _, _, _ => .error _
  | fuel + 1, depth, first, s => by
    unfold readItems
    split
    · exact .error _
    · exact .ok rfl _
    · refine .after _ fun s _ => ?_
      dsimp only
      split
      · exact .error _
      · refine (readValue_checked fuel depth s).bind fun item s hitem => ?_
        refine (readItems_checked fuel depth false s).bind fun items s hitems => ?_
        exact .ok (by simp [Document.areSound, hitem, hitems]) s

theorem readMembers_checked : ∀ (fuel depth : Nat) (first : Bool) (s : List Char),
    Checked (readMembers true fuel depth first s) (readMembers false fuel depth first s)
      (Document.membersSound depth)
  | 0, _, _, _ => .error _
  | fuel + 1, depth, first, s => by
    unfold readMembers
    split
    · exact .error _
    · exact .ok rfl _
    · refine .after _ fun s _ => ?_
      split
      · refine (readString_checked _).bind fun key s hkey => .after _ fun s _ => ?_
        refine (readValue_checked fuel depth s).bind fun value s hvalue => ?_
        refine (readMembers_checked fuel depth false s).bind fun members s hmembers => ?_
        exact .ok (by simp [Document.membersSound, hkey, hvalue, hmembers]) s
      · exact .error _
      · exact .error _

end

theorem membersDepth_insert {key : String} {value : Json} {level : Nat}
    (hvalue : value.depth ≤ level) :
    ∀ {lower : Option String} (follows : Follows lower key) (m : Members lower),
      membersDepth m ≤ level → membersDepth (m.insert key value follows) ≤ level
  | _, _, .nil, _ => by simpa [Members.insert, membersDepth] using hvalue
  | _, _, .cons k hk v rest, h => by
    rw [membersDepth, Nat.max_le] at h
    rw [Members.insert]
    split
    · exact Nat.max_le.2 ⟨hvalue, Nat.max_le.2 h⟩
    · split
      next heq =>
        subst heq
        exact Nat.max_le.2 ⟨hvalue, h.2⟩
      next => exact Nat.max_le.2 ⟨h.1, membersDepth_insert hvalue _ rest h.2⟩

theorem membersDepth_ofList {members : List (String × Json)} {level : Nat}
    (h : ∀ p ∈ members, p.2.depth ≤ level) : membersDepth (.ofList members) ≤ level := by
  induction members using List.reverseRecOn with
  | nil => exact Nat.zero_le _
  | append_singleton members p ih =>
    obtain ⟨hmembers, hp⟩ := List.forall_mem_append.1 h
    rw [Members.ofList, List.foldl_append]
    exact membersDepth_insert (hp p (.head _)) _ _ (ih hmembers)

mutual

/-- What is sound within some levels is not nested deeper than these. -/
theorem depth_value : ∀ (d : Document) {level : Nat}, d.isSound level = true →
    d.value.depth ≤ level
  | .null, _, _ | .bool _, _, _ => Nat.zero_le _
  | .number n, _, _ => by cases n <;> exact Nat.zero_le _
  | .string s, _, _ => by cases s <;> exact Nat.zero_le _
  | .array items, 0, h => by cases h
  | .array items, level + 1, h => Nat.succ_le_succ (itemsDepth_values items h)
  | .object members, 0, h => by cases h
  | .object members, level + 1, h =>
    Nat.succ_le_succ (membersDepth_ofList (depth_memberValues members h))

theorem itemsDepth_values : ∀ (items : List Document) {level : Nat},
    Document.areSound level items = true → itemsDepth (Document.values items) ≤ level
  | [], _, _ => Nat.zero_le _
  | item :: items, level, h => by
    rw [Document.areSound, Bool.and_eq_true] at h
    exact Nat.max_le.2 ⟨depth_value item h.1, itemsDepth_values items h.2⟩

theorem depth_memberValues : ∀ (members : List (Option String × Document)) {level : Nat},
    Document.membersSound level members = true →
      ∀ p ∈ Document.memberValues members, p.2.depth ≤ level
  | [], _, _ => List.forall_mem_nil _
  | (key, d) :: members, level, h => by
    rw [Document.membersSound, Bool.and_eq_true, Bool.and_eq_true] at h
    exact List.forall_mem_cons.2 ⟨depth_value d h.1.2, depth_memberValues members h.2⟩

end

/-- A member is not nested deeper than its object lets it be. -/
theorem depth_of_get? {key : String} {value : Json} : ∀ {lower : Option String} (m : Members lower),
    m.get? key = some value → value.depth ≤ membersDepth m
  | _, .nil, h => by cases h
  | _, .cons k _ v rest, h => by
    rw [Members.get?] at h
    split at h
    · cases h
      exact Nat.le_max_left ..
    · exact Nat.le_trans (depth_of_get? rest h) (Nat.le_max_right ..)

/-- A text that is a value is the document of that value to every reader, and a sound one. -/
theorem exists_document {text : String} {j : Json} (h : parse? text = some j) : ∃ d,
    Document.ofText? text = some d ∧ d.isSound maxDepth = true ∧ d.value = j := by
  obtain ⟨d, hread, hvalue⟩ := parse?_eq_some_iff.1 h
  obtain ⟨after, hread, hafter⟩ := read_eq_ok_iff.1 hread
  have hchecked := readValue_checked (2 * text.toList.length + 2) maxDepth text.toList
  refine ⟨d, ?_, hchecked.sound d after hread, hvalue⟩
  unfold Document.ofText? Document.read
  simp only [hchecked.same d after hread, bind, Except.bind, hafter]
  rfl

theorem depth_of_parse? {text : String} {j : Json} (h : parse? text = some j) :
    j.depth ≤ maxDepth := by
  obtain ⟨d, -, hsound, rfl⟩ := exists_document h
  exact depth_value d hsound

end Json
end DuplexRpc
