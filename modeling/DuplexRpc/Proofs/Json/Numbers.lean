import DuplexRpc.Json.Document
import DuplexRpc.Json.Printer
import Mathlib.Data.List.TakeWhile

/-!
Reading written numbers back. What ends a number in a written value is a comma, a bracket or the end
of the text. So a number is read the same alone and in its place; and an integer, written digit by
digit, is gathered to the same significand again.
-/
namespace DuplexRpc.Json

variable {s rest : List Char} {c : Char} {negative : Bool}

/-- The characters of written numbers. -/
def isNumberChar (c : Char) : Bool := c.isDigit || c == '-' || c == '+' || c == '.' || c == 'e'

theorem isNumberChar_of_mem_toDigits {n : Nat} {c : Char} (h : c ∈ Nat.toDigits 10 n) :
    isNumberChar c = true := by
  simp [isNumberChar, Nat.isDigit_of_mem_toDigits (by omega) (by omega) h]

theorem isNumberChar_of_mem_renderInt {n : Int} {c : Char} (h : c ∈ renderInt n) :
    isNumberChar c = true := by
  unfold renderInt at h
  split at h
  · rcases List.mem_cons.1 h with rfl | h
    · rfl
    · exact isNumberChar_of_mem_toDigits h
  · exact isNumberChar_of_mem_toDigits h

theorem isNumberChar_of_mem_plain {ds : List Char} (hds : ∀ c ∈ ds, isNumberChar c = true)
    (leading : Int) : ∀ c ∈ Binary64.Layout.plain ds leading, isNumberChar c = true := by
  have hzero : isNumberChar '0' = true := rfl
  have hpoint : isNumberChar '.' = true := rfl
  have hpad (k : Nat) : ∀ c ∈ ds ++ List.replicate k '0', isNumberChar c = true := by
    intro c hc
    rcases List.mem_append.1 hc with hc | hc
    · exact hds c hc
    · rw [List.eq_of_mem_replicate hc, hzero]
  intro c hc
  unfold Binary64.Layout.plain at hc
  split at hc
  · simp only [List.cons_append, List.mem_cons, List.mem_append, List.mem_replicate] at hc
    rcases hc with rfl | rfl | ⟨-, rfl⟩ | hc
    · exact hzero
    · exact hpoint
    · exact hzero
    · exact hds c hc
  · rcases List.mem_append.1 hc with hc | hc
    · exact hpad _ c (List.mem_of_mem_take hc)
    · rcases List.mem_cons.1 hc with rfl | hc
      · exact hpoint
      · split at hc
        · rw [List.mem_singleton.1 hc, hzero]
        · exact hpad _ c (List.mem_of_mem_drop hc)

theorem isNumberChar_of_mem_scientific {ds : List Char} (hds : ∀ c ∈ ds, isNumberChar c = true)
    (plus : Bool) (leading : Int) :
    ∀ c ∈ Binary64.Layout.scientific plus ds leading, isNumberChar c = true := by
  intro c hc
  unfold Binary64.Layout.scientific at hc
  simp only [List.mem_append, List.mem_cons] at hc
  rcases hc with (hc | rfl | hc) | hc
  · split at hc
    · cases hc
    · exact hds c hc
    · rcases List.mem_cons.1 hc with rfl | hc
      · exact hds _ List.mem_cons_self
      · rcases List.mem_cons.1 hc with rfl | hc
        · rfl
        · exact hds c (List.mem_cons_of_mem _ hc)
  · rfl
  · split at hc
    · rw [List.mem_singleton.1 hc]
      rfl
    · split at hc
      · rw [List.mem_singleton.1 hc]
        rfl
      · simp at hc
  · exact isNumberChar_of_mem_toDigits hc

theorem isNumberChar_of_mem_write (layout : Binary64.Layout) (x : FiniteBinary64) :
    ∀ c ∈ layout.write x, isNumberChar c = true := by
  have hsigned {negative : Bool} {s : List Char} (hs : ∀ c ∈ s, isNumberChar c = true) :
      ∀ c ∈ (if negative then '-' :: s else s), isNumberChar c = true := by
    split
    · exact List.forall_mem_cons.2 ⟨rfl, hs⟩
    · exact hs
  refine hsigned fun c hc => ?_
  split at hc
  · simp only [List.mem_cons, List.not_mem_nil, or_false] at hc
    rcases hc with rfl | rfl | rfl <;> rfl
  · dsimp only at hc
    split at hc
    · exact isNumberChar_of_mem_plain (fun _ => isNumberChar_of_mem_toDigits) _ c hc
    · exact isNumberChar_of_mem_scientific (fun _ => isNumberChar_of_mem_toDigits) _ _ c hc

theorem isNumberChar_of_mem_renderNumber {n : Number} {c : Char} (h : c ∈ renderNumber n) :
    isNumberChar c = true := by
  cases n with
  | integer value fits => exact isNumberChar_of_mem_renderInt h
  | double value => exact isNumberChar_of_mem_write _ _ c h

/-- What may stand behind a value. -/
def IsEnd : List Char → Prop
  | [] => True
  | c :: _ => c = ',' ∨ c = ']' ∨ c = '}'

theorem IsEnd.not_isNumberChar (h : IsEnd (c :: rest)) : isNumberChar c = false := by
  rcases h with rfl | rfl | rfl <;> rfl

theorem IsEnd.not_isDigit (h : IsEnd (c :: rest)) : c.isDigit = false := by
  rcases h with rfl | rfl | rfl <;> rfl

theorem spanDigits_append (s : List Char) (h : IsEnd rest) :
    spanDigits (s ++ rest) = ((spanDigits s).1, (spanDigits s).2 ++ rest) := by
  induction s with
  | nil =>
    cases rest with
    | nil => rfl
    | cons c rest => simp [spanDigits, h.not_isDigit]
  | cons c s ih =>
    simp only [spanDigits, Prod.mk.injEq] at ih
    cases hc : c.isDigit <;> simp [spanDigits, hc, ih]

/-- The reader leaves an end of what it reads, and reads the same if something else stands behind
it that ends a value. -/
def ReadsInPlace {α : Type} (read : List Char → Except Refusal (α × List Char)) : Prop :=
  ∀ s a after, read s = .ok (a, after) →
    after <:+ s ∧ ∀ rest, IsEnd rest → read (s ++ rest) = .ok (a, after ++ rest)

namespace ReadsInPlace

variable {α β : Type} {read : List Char → Except Refusal (α × List Char)}

theorem pure (a : α) : ReadsInPlace fun s => .ok (a, s) := by
  rintro s b after ⟨⟩
  exact ⟨List.suffix_refl s, fun _ _ => rfl⟩

/-- One reader after the other. -/
theorem bind {next : α → List Char → Except Refusal (β × List Char)} (h : ReadsInPlace read)
    (hnext : ∀ a, ReadsInPlace (next a)) :
    ReadsInPlace fun s => read s >>= fun r => next r.1 r.2 := by
  intro s b after hs
  dsimp only at hs ⊢
  cases hread : read s with
  | error refusal =>
    rw [hread] at hs
    cases hs
  | ok r =>
    rw [hread] at hs
    obtain ⟨hsuffix, happend⟩ := h _ _ _ hread
    obtain ⟨hsuffix', happend'⟩ := hnext r.1 _ _ _ hs
    refine ⟨hsuffix'.trans hsuffix, fun rest hrest => ?_⟩
    rw [happend rest hrest]
    exact happend' rest hrest

theorem map (h : ReadsInPlace read) (f : α → β) :
    ReadsInPlace fun s => (read s).map fun r => (f r.1, r.2) := by
  intro s b after hs
  dsimp only at hs ⊢
  cases hread : read s with
  | error refusal =>
    rw [hread] at hs
    cases hs
  | ok r =>
    rw [hread] at hs
    cases hs
    obtain ⟨hsuffix, happend⟩ := h _ _ _ hread
    refine ⟨hsuffix, fun rest hrest => ?_⟩
    rw [happend rest hrest]
    rfl

end ReadsInPlace

theorem readDigits_inPlace : ReadsInPlace readDigits := by
  intro s digits after hs
  have hspan : spanDigits s = (digits, after) ∧ digits ≠ [] := by
    unfold readDigits at hs
    split at hs
    next => cases hs
    next => cases hs
    next hnone hempty =>
      have hspan := Except.ok.inj hs
      refine ⟨hspan, fun hnil => ?_⟩
      subst hnil
      exact hempty after hspan
  have hafter : s.dropWhile Char.isDigit = after := congrArg Prod.snd hspan.1
  refine ⟨hafter ▸ List.dropWhile_suffix _, fun rest hrest => ?_⟩
  unfold readDigits
  rw [spanDigits_append s hrest, hspan.1]
  obtain ⟨c, cs, rfl⟩ := List.exists_cons_of_ne_nil hspan.2
  rfl

theorem readWhole_of_ne (h : ∀ after, s ≠ '0' :: after) : readWhole s = readDigits s := by
  unfold readWhole
  split
  next => exact absurd rfl (h _)
  next => rfl

theorem readPlaces_of_ne (h : ∀ after, s ≠ '.' :: after) : readPlaces s = .ok (none, s) := by
  unfold readPlaces
  split
  next => exact absurd rfl (h _)
  next => rfl

/-- Behind a text that does not begin with a character of numbers, no such character comes first. -/
theorem append_ne {c : Char} (hc : isNumberChar c = true) (h : ∀ after, s ≠ c :: after)
    (hrest : IsEnd rest) (after : List Char) : s ++ rest ≠ c :: after := by
  cases s with
  | nil =>
    rintro rfl
    cases hc.symm.trans hrest.not_isNumberChar
  | cons c' s =>
    intro heq
    cases heq
    exact h s rfl

theorem readWhole_inPlace : ReadsInPlace readWhole := by
  intro s digits after hs
  by_cases h : ∃ tail, s = '0' :: tail
  · obtain ⟨tail, rfl⟩ := h
    cases tail with
    | nil =>
      cases hs
      refine ⟨List.suffix_cons .., fun rest hrest => ?_⟩
      cases rest with
      | nil => rfl
      | cons c rest => simp [readWhole, hrest.not_isDigit]
    | cons c tail =>
      cases hc : c.isDigit <;> simp [readWhole, hc, refuse] at hs
      obtain ⟨rfl, rfl⟩ := hs
      exact ⟨List.suffix_cons .., fun _ _ => by simp [readWhole, hc]⟩
  · have hne (tail : List Char) : s ≠ '0' :: tail := fun heq => h ⟨tail, heq⟩
    rw [readWhole_of_ne hne] at hs
    obtain ⟨hsuffix, happend⟩ := readDigits_inPlace _ _ _ hs
    refine ⟨hsuffix, fun rest hrest => ?_⟩
    rw [readWhole_of_ne (append_ne rfl hne hrest)]
    exact happend rest hrest

theorem readPlaces_inPlace : ReadsInPlace readPlaces := by
  intro s places after hs
  by_cases h : ∃ tail, s = '.' :: tail
  · obtain ⟨tail, rfl⟩ := h
    obtain ⟨hsuffix, happend⟩ := readDigits_inPlace.map some tail _ _ hs
    exact ⟨hsuffix.trans (List.suffix_cons ..), happend⟩
  · have hne (tail : List Char) : s ≠ '.' :: tail := fun heq => h ⟨tail, heq⟩
    rw [readPlaces_of_ne hne] at hs
    cases hs
    exact ⟨List.suffix_refl s, fun _ hrest => readPlaces_of_ne (append_ne rfl hne hrest)⟩

theorem readSign_append (hs : s ≠ []) (rest : List Char) :
    readSign (s ++ rest) = ((readSign s).1, (readSign s).2 ++ rest) := by
  obtain ⟨c, s, rfl⟩ := List.exists_cons_of_ne_nil hs
  by_cases hplus : c = '+'
  · subst hplus
    rfl
  · by_cases hminus : c = '-'
    · subst hminus
      rfl
    · simp [readSign, hplus, hminus]

theorem readSign_suffix (s : List Char) : (readSign s).2 <:+ s := by
  unfold readSign
  split
  · exact List.suffix_cons ..
  · exact List.suffix_cons ..
  · exact List.suffix_refl s

theorem readSigned_inPlace : ReadsInPlace fun s =>
    (readDigits (readSign s).2).map fun r => (some ((readSign s).1, r.1), r.2) := by
  intro s power after hs
  have hne : s ≠ [] := by
    rintro rfl
    cases hs
  obtain ⟨hsuffix, happend⟩ := readDigits_inPlace.map
    (fun digits => some ((readSign s).1, digits)) (readSign s).2 _ _ hs
  refine ⟨hsuffix.trans (readSign_suffix s), fun rest hrest => ?_⟩
  simp only [readSign_append hne]
  exact happend rest hrest

theorem readPower_inPlace : ReadsInPlace readPower := by
  intro s power after hs
  cases s with
  | nil =>
    cases hs
    refine ⟨List.suffix_refl _, fun rest hrest => ?_⟩
    cases rest with
    | nil => rfl
    | cons c rest =>
      have hc : ¬(c = 'e' ∨ c = 'E') := by rcases hrest with rfl | rfl | rfl <;> decide
      simp [readPower, hc]
  | cons c s =>
    by_cases hc : c = 'e' ∨ c = 'E'
    · simp only [readPower, hc, if_true] at hs
      obtain ⟨hsuffix, happend⟩ := readSigned_inPlace s _ _ hs
      refine ⟨hsuffix.trans (List.suffix_cons ..), fun rest hrest => ?_⟩
      simp only [List.cons_append, readPower, hc, if_true]
      exact happend rest hrest
    · simp only [readPower, hc, if_false, Except.ok.injEq, Prod.mk.injEq] at hs
      obtain ⟨rfl, rfl⟩ := hs
      exact ⟨List.suffix_refl _, fun _ _ => by simp [readPower, hc]⟩

theorem readLiteral_inPlace (negative : Bool) : ReadsInPlace (readLiteral negative) :=
  readWhole_inPlace.bind fun whole => readPlaces_inPlace.bind fun places =>
    readPower_inPlace.bind fun power => .pure (⟨negative, whole, places, power⟩ : Literal)

theorem readNumber_eq_ok_iff {document : Document} {after : List Char} :
    readNumber true negative s = .ok (document, after) ↔ ∃ literal n,
      readLiteral negative s = .ok (literal, after) ∧ literal.value = .ok n ∧
        document = .number (some n) := by
  unfold readNumber
  cases hread : readLiteral negative s with
  | error refusal => simp [bind, Except.bind]
  | ok r =>
    obtain ⟨literal, rest⟩ := r
    cases hvalue : literal.value with
    | error unread => simp [bind, Except.bind, hvalue]
    | ok n =>
      simp only [bind, Except.bind, hvalue, pure, Except.pure, Except.ok.injEq, Prod.mk.injEq]
      constructor
      · rintro ⟨rfl, rfl⟩
        exact ⟨literal, n, ⟨rfl, rfl⟩, hvalue, rfl⟩
      · rintro ⟨_, m, ⟨rfl, rfl⟩, hm, rfl⟩
        cases hvalue.symm.trans hm
        exact ⟨rfl, rfl⟩

theorem readNumber_inPlace (negative : Bool) : ReadsInPlace (readNumber true negative) := by
  intro s document after hs
  obtain ⟨literal, n, hread, hvalue, hdocument⟩ := readNumber_eq_ok_iff.1 hs
  obtain ⟨hsuffix, happend⟩ := readLiteral_inPlace negative _ _ _ hread
  exact ⟨hsuffix, fun rest hrest =>
    readNumber_eq_ok_iff.2 ⟨literal, n, happend rest hrest, hvalue, hdocument⟩⟩

theorem exists_toDigits_eq_cons (n : Nat) : ∃ c cs, Nat.toDigits 10 n = c :: cs :=
  List.exists_cons_of_ne_nil Nat.toDigits_ne_nil

theorem head?_toDigits_ne_zero {n : Nat} (hn : 0 < n) : (Nat.toDigits 10 n).head? ≠ some '0' := by
  induction n using Nat.strongRecOn with
  | ind n ih =>
    rw [Nat.toDigits_eq_if (by decide)]
    split
    next hlt => simpa [Nat.digitChar_eq_zero] using Nat.ne_of_gt hn
    next hge =>
      have hhead := ih (n / 10) (by omega) (by omega)
      obtain ⟨c, cs, hcons⟩ := exists_toDigits_eq_cons (n / 10)
      rw [hcons] at hhead ⊢
      exact hhead

theorem spanDigits_toDigits (n : Nat) : spanDigits (Nat.toDigits 10 n) = (Nat.toDigits 10 n, []) := by
  have hall (c : Char) (hc : c ∈ Nat.toDigits 10 n) : c.isDigit = true :=
    Nat.isDigit_of_mem_toDigits (by decide) (by decide) hc
  unfold spanDigits
  rw [List.takeWhile_eq_self_iff.2 hall, List.dropWhile_eq_nil_iff.2 hall]

/-- A written natural number has no leading zero, so it is read as a whole. -/
theorem readWhole_toDigits (n : Nat) :
    readWhole (Nat.toDigits 10 n) = .ok (Nat.toDigits 10 n, []) := by
  rcases Nat.eq_zero_or_pos n with rfl | hn
  · rfl
  · have hne (after : List Char) : Nat.toDigits 10 n ≠ '0' :: after := by
      intro heq
      exact head?_toDigits_ne_zero hn (by rw [heq]; rfl)
    rw [readWhole_of_ne hne]
    unfold readDigits
    rw [spanDigits_toDigits]
    obtain ⟨c, cs, hcons⟩ := exists_toDigits_eq_cons n
    rw [hcons]

theorem readLiteral_toDigits (negative : Bool) (n : Nat) :
    readLiteral negative (Nat.toDigits 10 n) =
      .ok (⟨negative, Nat.toDigits 10 n, none, none⟩, []) := by
  unfold readLiteral
  rw [readWhole_toDigits]
  rfl

theorem gather_eq_of_lt {cs : List Char} {significand : Nat}
    (h : Nat.ofDigitChars 10 cs significand < Literal.significandLimit) :
    Literal.gather significand cs = (Nat.ofDigitChars 10 cs significand, cs.length) := by
  induction cs generalizing significand with
  | nil => rfl
  | cons c cs ih =>
    have hcons : Nat.ofDigitChars 10 (c :: cs) significand =
        Nat.ofDigitChars 10 cs (significand * 10 + Literal.digitValue c) := by
      rw [Nat.ofDigitChars_cons, Literal.digitValue, Nat.mul_comm]
    rw [hcons] at h ⊢
    -- each digit lets the significand grow, so none of them leaves the range before the last
    have hle : significand * 10 + Literal.digitValue c ≤
        Nat.ofDigitChars 10 cs (significand * 10 + Literal.digitValue c) := by
      rw [Nat.ofDigitChars_eq_ofDigitChars_zero]
      have hpow : 0 < 10 ^ cs.length := Nat.pos_of_ne_zero (by simp)
      exact Nat.le_add_right_of_le (Nat.le_mul_of_pos_left _ hpow)
    simp [Literal.gather, Nat.lt_of_le_of_lt hle h, ih h]

/-- The value of a written natural number behind a sign, if an integer has it. -/
theorem value_toDigits {n : Nat} {value : Number} (hn : n < Literal.significandLimit)
    (hvalue : Literal.integral? negative n = some value) :
    (Literal.mk negative (Nat.toDigits 10 n) none none).value = .ok value := by
  have hgather : Literal.gather 0 (Nat.toDigits 10 n) = (n, (Nat.toDigits 10 n).length) := by
    rw [gather_eq_of_lt] <;> rw [Nat.ofDigitChars_ten_toDigits]
    exact hn
  simp [Literal.value, hgather, hvalue]

theorem isSpace_of_isNumberChar (h : isNumberChar c = true) : isSpace c = false := by
  cases hspace : isSpace c with
  | false => rfl
  | true =>
    simp only [isSpace, Bool.or_eq_true, beq_iff_eq, or_assoc] at hspace
    rcases hspace with rfl | rfl | rfl | rfl <;> cases h

theorem skipSpace_cons (h : isSpace c = false) (s : List Char) : skipSpace (c :: s) = c :: s := by
  simp [skipSpace, h]

/-- A text that begins with a character of numbers is read as a number or not at all. -/
theorem readValue_of_isNumberChar (fuel depth : Nat) (h : isNumberChar c = true) :
    readValue true (fuel + 1) depth (c :: s) =
      if c = '-' then readNumber true true s
      else if c.isDigit then readNumber true false (c :: s)
      else refuse .expectedValue (c :: s) := by
  unfold readValue
  rw [skipSpace_cons (isSpace_of_isNumberChar h)]
  split
  case h_1 heq => cases heq
  case h_5 heq =>
    cases heq
    rfl
  case h_9 _ _ _ hminus _ _ _ heq =>
    cases heq
    rw [if_neg hminus]
  all_goals
    next heq =>
      cases heq
      cases h

/-- In its place a number is read as it is alone. -/
theorem readValue_append {document : Document} (fuel depth fuel' depth' : Nat)
    (h : isNumberChar c = true) (hs : readValue true (fuel + 1) depth (c :: s) = .ok (document, []))
    (hrest : IsEnd rest) :
    readValue true (fuel' + 1) depth' (c :: s ++ rest) = .ok (document, rest) := by
  rw [readValue_of_isNumberChar fuel depth h] at hs
  rw [List.cons_append, readValue_of_isNumberChar fuel' depth' h]
  by_cases hminus : c = '-'
  · rw [if_pos hminus] at hs ⊢
    exact (readNumber_inPlace true _ _ _ hs).2 rest hrest
  · rw [if_neg hminus] at hs ⊢
    cases hdigit : c.isDigit with
    | false => simp [hdigit, refuse] at hs
    | true =>
      simp only [hdigit, if_true] at hs ⊢
      exact (readNumber_inPlace false _ _ _ hs).2 rest hrest

theorem integral?_natAbs {n : Int} (fits : -0x8000000000000000 ≤ n ∧ n < 0x10000000000000000) :
    Literal.integral? (n < 0) n.natAbs = some (.integer n fits) := by
  have hzero : (decide (n < 0) && n.natAbs == 0) = false := by
    rw [Bool.and_eq_false_iff, decide_eq_false_iff_not, beq_eq_false_iff_ne]
    omega
  have hvalue : (if decide (n < 0) = true then -(n.natAbs : Int) else n.natAbs) = n := by
    simp only [decide_eq_true_eq]
    split <;> omega
  rw [Literal.integral?, hzero, if_neg Bool.false_ne_true, hvalue]
  exact dif_pos fits

/-- An integer is read back from its sign and its digits. -/
theorem readNumber_natAbs {n : Int} (fits : -0x8000000000000000 ≤ n ∧ n < 0x10000000000000000) :
    readNumber true (n < 0) (Nat.toDigits 10 n.natAbs) =
      .ok (.number (some (.integer n fits)), []) := by
  refine readNumber_eq_ok_iff.2 ⟨_, .integer n fits, readLiteral_toDigits .., ?_, rfl⟩
  exact value_toDigits (by simp only [Literal.significandLimit]; omega) (integral?_natAbs fits)

theorem readValue_integer {n : Int} (fits : -0x8000000000000000 ≤ n ∧ n < 0x10000000000000000)
    (fuel depth : Nat) (hrest : IsEnd rest) :
    readValue true (fuel + 1) depth (renderInt n ++ rest) =
      .ok (.number (some (.integer n fits)), rest) := by
  have hread := readNumber_natAbs fits
  unfold renderInt
  split
  next hn =>
    refine readValue_append 0 0 fuel depth rfl ?_ hrest
    rw [readValue_of_isNumberChar 0 0 rfl, if_pos rfl]
    simpa [hn] using hread
  next hn =>
    obtain ⟨c, cs, hcons⟩ := exists_toDigits_eq_cons n.natAbs
    have hmem : c ∈ Nat.toDigits 10 n.natAbs := by simp [hcons]
    have hdigit : c.isDigit = true := Nat.isDigit_of_mem_toDigits (by decide) (by decide) hmem
    have hminus : c ≠ '-' := by
      rintro rfl
      cases hdigit
    have hnumber := isNumberChar_of_mem_toDigits hmem
    rw [hcons] at hread ⊢
    refine readValue_append 0 0 fuel depth hnumber ?_ hrest
    rw [readValue_of_isNumberChar 0 0 hnumber, if_neg hminus, if_pos hdigit]
    simpa [hn] using hread

/-- What is read of a text that begins with a character of numbers is a number. -/
theorem number_of_readValue {document : Document} {after : List Char} {fuel depth : Nat}
    (h : isNumberChar c = true)
    (hs : readValue true (fuel + 1) depth (c :: s) = .ok (document, after)) :
    (∃ n, document = .number (some n)) ∧ after <:+ c :: s := by
  rw [readValue_of_isNumberChar fuel depth h] at hs
  split at hs
  · obtain ⟨literal, n, -, -, rfl⟩ := readNumber_eq_ok_iff.1 hs
    exact ⟨⟨n, rfl⟩, (readNumber_inPlace true _ _ _ hs).1.trans (List.suffix_cons ..)⟩
  · split at hs
    · obtain ⟨literal, n, -, -, rfl⟩ := readNumber_eq_ok_iff.1 hs
      exact ⟨⟨n, rfl⟩, (readNumber_inPlace false _ _ _ hs).1⟩
    · cases hs

/-- The double is read back from its written form. Reading rounds more than once, so not every
double is. -/
def ReadsBack (x : FiniteBinary64) : Prop :=
  parse? (toText (.number (.double x))) = some (.number (.double x))

instance (x : FiniteBinary64) : Decidable (ReadsBack x) :=
  inferInstanceAs (Decidable (_ = _))

example : ¬ ReadsBack ⟨false, ⟨8880072472685889388, by decide⟩⟩ := by decide +kernel

theorem parse?_eq_some_iff {text : String} {j : Json} : parse? text = some j ↔
    ∃ document, Document.read true text.toList = .ok document ∧ document.value = j := by
  unfold parse? parse
  cases Document.read true text.toList with
  | error refusal => simp [Except.toOption]
  | ok document => simp [Except.toOption]

/-- A checked reading of a text is the reading of a value with nothing but space behind it. -/
theorem read_eq_ok_iff {document : Document} : Document.read true s = .ok document ↔
    ∃ after, readValue true (2 * s.length + 2) maxDepth s = .ok (document, after) ∧
      skipSpace after = [] := by
  unfold Document.read
  cases readValue true (2 * s.length + 2) maxDepth s with
  | error refusal => simp [bind, Except.bind]
  | ok r =>
    simp only [bind, Except.bind, Except.ok.injEq]
    split
    next hafter =>
      simp only [pure, Except.pure, Except.ok.injEq, Prod.ext_iff]
      constructor
      · rintro rfl
        exact ⟨r.2, ⟨rfl, rfl⟩, hafter⟩
      · rintro ⟨_, ⟨hdocument, -⟩, -⟩
        exact hdocument
    next hafter =>
      simp only [refuse, reduceCtorEq, false_iff]
      rintro ⟨after, rfl, hnone⟩
      exact hafter hnone

theorem ReadsBack.readValue {x : FiniteBinary64} (h : ReadsBack x) (fuel depth : Nat)
    (hrest : IsEnd rest) :
    readValue true (fuel + 1) depth (numberLayout.write x ++ rest) =
      .ok (.number (some (.double x)), rest) := by
  obtain ⟨document, hread, hvalue⟩ := parse?_eq_some_iff.1 h
  obtain ⟨after, hread, hafter⟩ := read_eq_ok_iff.1 hread
  rw [toText, String.toList_ofList] at hread
  change Json.readValue true _ maxDepth (numberLayout.write x) = _ at hread
  have hchars := isNumberChar_of_mem_write numberLayout x
  cases htext : numberLayout.write x with
  | nil =>
    rw [htext] at hread
    cases hread
  | cons c s =>
    rw [htext] at hread hchars
    have hc : isNumberChar c = true := hchars c List.mem_cons_self
    obtain ⟨⟨n, rfl⟩, hsuffix⟩ := number_of_readValue hc hread
    have hn : n = .double x := by simpa [Document.value] using hvalue
    have hend : after = [] := by
      cases after with
      | nil => rfl
      | cons a after =>
        have ha : isNumberChar a = true := hchars a (hsuffix.subset List.mem_cons_self)
        rw [skipSpace_cons (isSpace_of_isNumberChar ha)] at hafter
        cases hafter
    rw [hn, hend] at hread
    exact readValue_append _ _ fuel depth hc hread hrest

end DuplexRpc.Json
