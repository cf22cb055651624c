import DuplexRpc.Proofs.Json.Numbers

/-!
Reading written values back. Written texts, items and members are read as they were written, and the
members of an object, in ascending order, make up the same object again. So a value that is not
nested too deep is read back from its written form, if its doubles are.
-/
namespace DuplexRpc

theorem Follows.trans {lower : Option String} {k key : String} (h : Follows lower k) (hk : k < key) :
    Follows lower key := by
  cases lower with
  | none => trivial
  | some lower => exact String.lt_trans h hk

namespace Members

theorem follows_of_get? {key : String} {value : Json} : ∀ {lower : Option String}
    (m : Members lower), m.get? key = some value → Follows lower key
  | _, nil, h => by cases h
  | _, cons k follows v rest, h => by
    rw [get?] at h
    split at h
    next heq => exact heq ▸ follows
    next => exact follows.trans (follows_of_get? rest h)

/-- The members that stand behind a key have other keys. -/
theorem get?_self {k : String} (m : Members (some k)) : m.get? k = none := by
  cases h : m.get? k with
  | none => rfl
  | some value => exact absurd (follows_of_get? m h) (String.lt_irrefl k)

/-- Members that hold the same under every key are the same. -/
theorem ext_get? : ∀ {lower : Option String} (m m' : Members lower),
    (∀ key, m.get? key = m'.get? key) → m = m'
  | _, nil, nil, _ => rfl
  | _, nil, cons k _ v rest, h => by simpa [get?] using h k
  | _, cons k _ v rest, nil, h => by simpa [get?] using h k
  | _, cons k hk v rest, cons k' hk' v' rest', h => by
    have hkeys : k = k' := by
      by_contra hne
      have hleft : rest'.get? k = some v := by simpa [get?, Ne.symm hne] using (h k).symm
      have hright : rest.get? k' = some v' := by simpa [get?, hne] using h k'
      exact String.lt_irrefl k
        (String.lt_trans (follows_of_get? rest hright) (follows_of_get? rest' hleft))
    subst hkeys
    have hvalues : v = v' := by simpa [get?] using h k
    have hrests : rest = rest' := by
      refine ext_get? rest rest' fun key => ?_
      by_cases hkey : k = key
      · subst hkey
        rw [get?_self, get?_self]
      · simpa [get?, hkey] using h key
    rw [hvalues, hrests]

theorem get?_foldl_insert (key : String) : ∀ {lower : Option String} (m : Members lower)
    (before : Members none),
    (m.toList.foldl (fun (m : Members none) p => m.insert p.1 p.2 trivial) before).get? key =
      (m.get? key).or (before.get? key)
  | _, nil, before => rfl
  | _, cons k _ v rest, before => by
    rw [toList, List.foldl_cons, get?_foldl_insert key rest]
    have hinsert : (before.insert k v trivial : Members none).get? key =
        if k = key then some v else before.get? key := get?_insert ..
    refine (congrArg (rest.get? key).or hinsert).trans ?_
    rw [get?]
    by_cases hkey : k = key
    · subst hkey
      simp [get?_self]
    · simp [hkey]

theorem ofList_toList (m : Members none) : ofList m.toList = m := by
  refine ext_get? _ _ fun key => ?_
  exact (get?_foldl_insert key m nil).trans Option.or_none

end Members

namespace Json

variable {c : Char} {s rest after : List Char} {level fuel : Nat} {d : Document}

theorem hexValues?_control : ∀ n < 0x20,
    hexValues? ['0', '0', (n / 16).digitChar, (n % 16).digitChar] = some n := by
  decide

theorem readCodePoint_control (h : c.toNat < 0x20) (rest : List Char) :
    readCodePoint true ('0' :: '0' :: (c.toNat / 16).digitChar :: (c.toNat % 16).digitChar :: rest) =
      .ok (some c, rest) := by
  have hhex : readHex
      ('0' :: '0' :: (c.toNat / 16).digitChar :: (c.toNat % 16).digitChar :: rest) =
        .ok (c.toNat, rest) := by
    simp [readHex, hexValues?_control _ h]
  have htrailing : isTrailing c.toNat = false := by
    simp only [isTrailing, Bool.and_eq_false_iff, decide_eq_false_iff_not]
    omega
  have hleading : isLeading c.toNat = false := by
    simp only [isLeading, Bool.and_eq_false_iff, decide_eq_false_iff_not]
    omega
  simp [readCodePoint, hhex, htrailing, hleading, bind, Except.bind, pure, Except.pure,
    Char.ofNat_toNat]

/-- What a character is written as begins with no quote and is read as that character. -/
theorem readChar_renderChar (c : Char) : ∃ sign signs, renderChar c = sign :: signs ∧
    sign ≠ '"' ∧ ∀ rest, readChar true sign (signs ++ rest) = .ok (some c, rest) := by
  by_cases hquote : c = '"'
  · subst hquote
    exact ⟨_, _, rfl, by decide, fun _ => rfl⟩
  by_cases hbackslash : c = '\\'
  · subst hbackslash
    exact ⟨_, _, rfl, by decide, fun _ => rfl⟩
  unfold renderChar
  rw [if_neg hquote, if_neg hbackslash]
  iterate 5
    split
    next heq =>
      subst heq
      exact ⟨_, _, rfl, by decide, fun _ => rfl⟩
  split
  next hcontrol => exact ⟨_, _, rfl, by decide, readCodePoint_control hcontrol⟩
  next hplain =>
    exact ⟨c, [], rfl, hquote, fun rest => by simp [readChar, hbackslash, hplain]⟩

theorem readText_renderChars (cs : List Char) {fuel : Nat} (h : cs.length < fuel)
    (rest : List Char) :
    readText true fuel (cs.flatMap renderChar ++ '"' :: rest) = .ok (some cs, rest) := by
  induction cs generalizing fuel with
  | nil =>
    obtain ⟨fuel, rfl⟩ := Nat.exists_eq_succ_of_ne_zero (Nat.ne_of_gt h)
    rfl
  | cons c cs ih =>
    obtain ⟨fuel, rfl⟩ := Nat.exists_eq_succ_of_ne_zero (Nat.ne_of_gt (Nat.zero_lt_of_lt h))
    obtain ⟨sign, signs, hsigns, hquote, hread⟩ := readChar_renderChar c
    have htail := ih (Nat.lt_of_succ_lt_succ h)
    rw [List.flatMap_cons, hsigns]
    simp [readText, hquote, hread, htail, bind, Except.bind, pure, Except.pure]

theorem length_le_flatMap_renderChar (cs : List Char) :
    cs.length ≤ (cs.flatMap renderChar).length := by
  induction cs with
  | nil => simp
  | cons c cs ih =>
    obtain ⟨sign, signs, hsigns, -⟩ := readChar_renderChar c
    rw [List.flatMap_cons, hsigns, List.length_append, List.length_cons, List.length_cons]
    omega

/-- A written text behind its opening quote. -/
theorem readString_renderString (s : String) (rest : List Char) :
    readString true (s.toList.flatMap renderChar ++ '"' :: rest) = .ok (some s, rest) := by
  have hfuel : s.toList.length < (s.toList.flatMap renderChar ++ '"' :: rest).length := by
    have hle := length_le_flatMap_renderChar s.toList
    simp only [List.length_append, List.length_cons]
    omega
  unfold readString
  rw [readText_renderChars s.toList hfuel]
  simp [Except.map]

mutual

/-- The document that a value is written as. -/
def document : Json → Document
  | null => .null
  | bool b => .bool b
  | number n => .number (some n)
  | string s => .string (some s)
  | array items => .array (documents items)
  | object members => .object (memberDocuments members)

def documents : List Json → List Document
  | [] => []
  | item :: items => item.document :: documents items

def memberDocuments : {lower : Option String} → Members lower → List (Option String × Document)
  | _, .nil => []
  | _, .cons key _ value rest => (some key, value.document) :: memberDocuments rest

end

mutual

theorem value_document : ∀ j : Json, j.document.value = j
  | null | bool _ | number _ | string _ => rfl
  | array items => by rw [document, Document.value, values_documents items]
  | object members => by
    rw [document, Document.value, memberValues_memberDocuments members, ofList,
      Members.ofList_toList]

theorem values_documents : ∀ items : List Json, Document.values (documents items) = items
  | [] => rfl
  | item :: items => by
    rw [documents, Document.values, value_document item, values_documents items]

theorem memberValues_memberDocuments : ∀ {lower : Option String} (m : Members lower),
    Document.memberValues (memberDocuments m) = m.toList
  | _, .nil => rfl
  | _, .cons key _ value rest => by
    rw [memberDocuments, Document.memberValues, value_document value,
      memberValues_memberDocuments rest]
    rfl

end

mutual

/-- How deep arrays and objects are nested. -/
def depth : Json → Nat
  | array items => itemsDepth items + 1
  | object members => membersDepth members + 1
  | _ => 0

def itemsDepth : List Json → Nat
  | [] => 0
  | item :: items => max item.depth (itemsDepth items)

def membersDepth : {lower : Option String} → Members lower → Nat
  | _, .nil => 0
  | _, .cons _ _ value rest => max value.depth (membersDepth rest)

end

mutual

/-- The doubles that a value holds. -/
def doubles : Json → List FiniteBinary64
  | number (.double x) => [x]
  | array items => itemsDoubles items
  | object members => membersDoubles members
  | _ => []

def itemsDoubles : List Json → List FiniteBinary64
  | [] => []
  | item :: items => item.doubles ++ itemsDoubles items

def membersDoubles : {lower : Option String} → Members lower → List FiniteBinary64
  | _, .nil => []
  | _, .cons _ _ value rest => value.doubles ++ membersDoubles rest

end

/-- The text is read as this document wherever it stands, at most `level` levels above the deepest
one that is allowed. -/
structure Reads (level : Nat) (s : List Char) (d : Document) : Prop where
  begins : ∃ c tail, s = c :: tail ∧ isSpace c = false ∧ c ≠ ']'
  reads : ∀ fuel rest, 2 * s.length ≤ fuel → IsEnd rest →
    readValue true fuel level (s ++ rest) = .ok (d, rest)

theorem exists_succ_of_length_le (h : 2 * (c :: s).length ≤ fuel) : ∃ n, fuel = n + 1 := by
  rw [List.length_cons] at h
  exact Nat.exists_eq_succ_of_ne_zero (by omega)

theorem Reads.of_succ (begins : ∃ c tail, s = c :: tail ∧ isSpace c = false ∧ c ≠ ']')
    (h : ∀ fuel rest, 2 * s.length ≤ fuel + 1 → IsEnd rest →
      readValue true (fuel + 1) level (s ++ rest) = .ok (d, rest)) :
    Reads level s d := by
  refine ⟨begins, fun fuel rest hfuel hrest => ?_⟩
  obtain ⟨c, tail, rfl, -⟩ := begins
  obtain ⟨fuel, rfl⟩ := exists_succ_of_length_le hfuel
  exact h fuel rest hfuel hrest

/-- A bracket takes two more steps, its own and that of what stands behind it. -/
theorem Reads.of_bracket (hspace : isSpace c = false) (hbracket : c ≠ ']')
    (h : ∀ fuel rest, 2 * s.length ≤ fuel → IsEnd rest →
      readValue true (fuel + 2) level (c :: s ++ rest) = .ok (d, rest)) :
    Reads level (c :: s) d := by
  refine ⟨⟨c, s, rfl, hspace, hbracket⟩, fun fuel rest hfuel hrest => ?_⟩
  rw [List.length_cons] at hfuel
  obtain ⟨fuel, rfl⟩ : ∃ n, fuel = n + 2 := ⟨fuel - 2, by omega⟩
  exact h fuel rest (by omega) hrest

theorem reads_null : Reads level ['n', 'u', 'l', 'l'] .null :=
  .of_succ ⟨_, _, rfl, rfl, by decide⟩ fun _ _ _ _ => rfl

theorem reads_bool (b : Bool) : Reads level (render (.bool b)) (.bool b) := by
  cases b <;> exact .of_succ ⟨_, _, rfl, rfl, by decide⟩ fun _ _ _ _ => rfl

theorem reads_string (text : String) : Reads level (renderString text) (.string (some text)) := by
  refine .of_succ ⟨_, _, rfl, rfl, by decide⟩ fun fuel rest _ _ => ?_
  have hread := readString_renderString text rest
  simp only [renderString, List.cons_append, List.append_assoc, List.nil_append]
  unfold readValue
  rw [skipSpace_cons rfl]
  simp only [hread, Except.map]

theorem reads_number {n : Number} (h : ∀ x, n = .double x → ReadsBack x) :
    Reads level (renderNumber n) (.number (some n)) := by
  have hread (fuel : Nat) (rest : List Char) (hrest : IsEnd rest) :
      readValue true (fuel + 1) level (renderNumber n ++ rest) = .ok (.number (some n), rest) := by
    cases n with
    | integer value fits => exact readValue_integer fits fuel level hrest
    | double x => exact (h x rfl).readValue fuel level hrest
  refine .of_succ ?_ fun fuel rest _ hrest => hread fuel rest hrest
  cases hs : renderNumber n with
  | nil =>
    have hempty := hread 0 [] trivial
    rw [hs] at hempty
    cases hempty
  | cons c tail =>
    have hc : isNumberChar c = true := isNumberChar_of_mem_renderNumber (n := n) (by simp [hs])
    refine ⟨c, tail, rfl, isSpace_of_isNumberChar hc, ?_⟩
    rintro rfl
    cases hc

theorem readItems_first (h : Reads level s d) (hfuel : 2 * s.length ≤ fuel) (hafter : IsEnd after) :
    readItems true (fuel + 1) level true (s ++ after) =
      (readItems true fuel level false after).map fun r => (d :: r.1, r.2) := by
  have hread := h.reads fuel after hfuel hafter
  obtain ⟨c, tail, rfl, hspace, hbracket⟩ := h.begins
  rw [readItems, List.cons_append, skipSpace_cons hspace]
  split
  next heq => cases heq
  next heq =>
    cases heq
    exact absurd rfl hbracket
  next =>
    rw [List.cons_append] at hread
    simp only [readSeparator, if_true, bind, Except.bind, hread, Bool.not_true, Bool.false_and]
    cases readItems true fuel level false after <;> rfl

/-- Behind a comma the next item is read as a first one is. -/
theorem readItems_comma (hspace : isSpace c = false) (hbracket : c ≠ ']') :
    readItems true (fuel + 1) level false (',' :: c :: s) =
      readItems true (fuel + 1) level true (c :: s) := by
  have hseparator : readSeparator false (',' :: c :: s) .expectedListComma = .ok (c :: s) := by
    simp [readSeparator, skipSpace_cons hspace]
  rw [readItems, readItems, skipSpace_cons hspace, skipSpace_cons rfl]
  split
  next heq => cases heq
  next heq => cases heq
  next =>
    split
    next heq => cases heq
    next heq =>
      cases heq
      exact absurd rfl hbracket
    next =>
      rw [hseparator]
      simp [readSeparator, bind, Except.bind, hbracket]

theorem readItems_next (h : Reads level s d) (hfuel : 2 * s.length ≤ fuel) (hafter : IsEnd after) :
    readItems true (fuel + 1) level false (',' :: s ++ after) =
      (readItems true fuel level false after).map fun r => (d :: r.1, r.2) := by
  have hfirst := readItems_first h hfuel hafter
  obtain ⟨c, tail, rfl, hspace, hbracket⟩ := h.begins
  exact (readItems_comma hspace hbracket).trans hfirst

theorem readMembers_first (key : String) (h : Reads level s d) (hfuel : 2 * s.length ≤ fuel)
    (hafter : IsEnd after) :
    readMembers true (fuel + 1) level true (renderString key ++ ':' :: s ++ after) =
      (readMembers true fuel level false after).map fun r => ((some key, d) :: r.1, r.2) := by
  have hread := h.reads fuel after hfuel hafter
  have hkey := readString_renderString key (':' :: (s ++ after))
  have hcolon : readColon (':' :: (s ++ after)) = .ok (s ++ after) := rfl
  rw [readMembers]
  simp only [renderString, List.cons_append, List.append_assoc, List.nil_append]
  rw [skipSpace_cons rfl]
  split
  next heq => cases heq
  next heq => cases heq
  next =>
    simp only [readSeparator, if_true, bind, Except.bind, hkey, hcolon, hread]
    cases readMembers true fuel level false after <;> rfl

theorem readMembers_comma (key : String) (s : List Char) :
    readMembers true (fuel + 1) level false (',' :: renderString key ++ s) =
      readMembers true (fuel + 1) level true (renderString key ++ s) :=
  rfl

theorem readMembers_next (key : String) (h : Reads level s d) (hfuel : 2 * s.length ≤ fuel)
    (hafter : IsEnd after) :
    readMembers true (fuel + 1) level false (',' :: renderString key ++ ':' :: s ++ after) =
      (readMembers true fuel level false after).map fun r => ((some key, d) :: r.1, r.2) := by
  have hfirst := readMembers_first key h hfuel hafter
  rw [List.append_assoc] at hfirst ⊢
  exact (readMembers_comma key _).trans hfirst

theorem isEnd_renderItems (items : List Json) (rest : List Char) :
    IsEnd (renderItems items ++ rest) := by
  cases items with
  | nil => exact .inr (.inl rfl)
  | cons item items => exact .inl rfl

theorem readItems_renderItems {items : List Json}
    (h : ∀ j ∈ items, Reads level j.render j.document)
    (hfuel : 2 * (renderItems items).length ≤ fuel) :
    readItems true fuel level false (renderItems items ++ rest) = .ok (documents items, rest) := by
  induction items generalizing fuel with
  | nil =>
    obtain ⟨fuel, rfl⟩ := exists_succ_of_length_le hfuel
    rfl
  | cons item items ih =>
    obtain ⟨hitem, hitems⟩ := List.forall_mem_cons.1 h
    obtain ⟨fuel, rfl⟩ := exists_succ_of_length_le hfuel
    simp only [renderItems, List.length_append, List.length_cons] at hfuel
    rw [renderItems, List.append_assoc,
      readItems_next hitem (by omega) (isEnd_renderItems items rest), ih hitems (by omega)]
    rfl

theorem reads_array {items : List Json} (h : ∀ j ∈ items, Reads level j.render j.document) :
    Reads (level + 1) (render (.array items)) (document (.array items)) := by
  have hvalue (fuel : Nat) (s : List Char) : readValue true (fuel + 1) (level + 1) ('[' :: s) =
      (readItems true fuel level true s).map fun r => (.array r.1, r.2) := rfl
  cases items with
  | nil => exact .of_bracket rfl (by decide) fun _ _ _ _ => rfl
  | cons item items =>
    obtain ⟨hitem, hitems⟩ := List.forall_mem_cons.1 h
    refine .of_bracket (s := render item ++ renderItems items) rfl (by decide)
      fun fuel rest hfuel _ => ?_
    rw [List.length_append] at hfuel
    rw [List.cons_append, List.append_assoc, hvalue,
      readItems_first hitem (by omega) (isEnd_renderItems items rest),
      readItems_renderItems hitems (by omega)]
    rfl

/-- Members behind a first one, each with the text of its value, and the bracket. -/
def fieldsText : List (String × List Char) → List Char
  | [] => ['}']
  | (key, s) :: fields => ',' :: renderString key ++ ':' :: s ++ fieldsText fields

def objectText : List (String × List Char) → List Char
  | [] => ['{', '}']
  | (key, s) :: fields => '{' :: renderString key ++ ':' :: s ++ fieldsText fields

theorem renderMembers_eq : ∀ {lower : Option String} (m : Members lower),
    renderMembers m = fieldsText (m.toList.map fun p => (p.1, p.2.render))
  | _, .nil => rfl
  | _, .cons key _ value rest => by
    rw [renderMembers, renderMembers_eq rest]
    rfl

theorem render_object (m : Members none) :
    render (.object m) = objectText (m.toList.map fun p => (p.1, p.2.render)) := by
  cases m with
  | nil => rfl
  | cons key _ value rest =>
    rw [render, renderMembers_eq]
    rfl

theorem memberDocuments_eq : ∀ {lower : Option String} (m : Members lower),
    memberDocuments m = m.toList.map fun p => (some p.1, p.2.document)
  | _, .nil => rfl
  | _, .cons key _ value rest => by
    rw [memberDocuments, memberDocuments_eq rest]
    rfl

theorem isEnd_fieldsText (fields : List (String × List Char)) (rest : List Char) :
    IsEnd (fieldsText fields ++ rest) := by
  cases fields with
  | nil => exact .inr (.inr rfl)
  | cons field fields => exact .inl rfl

theorem readMembers_fieldsText {fields : List (String × List Char × Document)}
    (h : ∀ f ∈ fields, Reads level f.2.1 f.2.2)
    (hfuel : 2 * (fieldsText (fields.map fun f => (f.1, f.2.1))).length ≤ fuel) :
    readMembers true fuel level false (fieldsText (fields.map fun f => (f.1, f.2.1)) ++ rest) =
      .ok (fields.map fun f => (some f.1, f.2.2), rest) := by
  induction fields generalizing fuel with
  | nil =>
    obtain ⟨fuel, rfl⟩ := exists_succ_of_length_le hfuel
    rfl
  | cons field fields ih =>
    obtain ⟨hfield, hfields⟩ := List.forall_mem_cons.1 h
    obtain ⟨fuel, rfl⟩ := exists_succ_of_length_le hfuel
    simp only [List.map_cons, fieldsText, List.length_append, List.length_cons] at hfuel
    rw [List.map_cons, fieldsText, List.append_assoc,
      readMembers_next field.1 hfield (by omega) (isEnd_fieldsText _ rest), ih hfields (by omega)]
    rfl

/-- An object of members in any order. -/
theorem reads_object {fields : List (String × List Char × Document)}
    (h : ∀ f ∈ fields, Reads level f.2.1 f.2.2) :
    Reads (level + 1) (objectText (fields.map fun f => (f.1, f.2.1)))
      (.object (fields.map fun f => (some f.1, f.2.2))) := by
  have hvalue (fuel : Nat) (s : List Char) : readValue true (fuel + 1) (level + 1) ('{' :: s) =
      (readMembers true fuel level true s).map fun r => (.object r.1, r.2) := rfl
  cases fields with
  | nil => exact .of_bracket rfl (by decide) fun _ _ _ _ => rfl
  | cons field fields =>
    obtain ⟨hfield, hfields⟩ := List.forall_mem_cons.1 h
    refine .of_bracket (s := renderString field.1 ++ ':' :: field.2.1 ++
      fieldsText (fields.map fun f => (f.1, f.2.1))) rfl (by decide) fun fuel rest hfuel _ => ?_
    simp only [List.length_append, List.length_cons] at hfuel
    rw [List.cons_append, List.append_assoc, hvalue,
      readMembers_first field.1 hfield (by omega) (isEnd_fieldsText _ rest),
      readMembers_fieldsText hfields (by omega)]
    rfl

/-- Under a bracket one level less is allowed. -/
theorem exists_level {n : Nat} (h : n + 1 ≤ level) : ∃ below, level = below + 1 ∧ n ≤ below :=
  ⟨level - 1, by omega, by omega⟩

mutual

/-- A value that is not nested deeper than allowed is read as its document, if its doubles are read
back. -/
theorem reads_render : ∀ (j : Json) {level : Nat}, j.depth ≤ level →
    (∀ x ∈ j.doubles, ReadsBack x) → Reads level j.render j.document
  | null, _, _, _ => reads_null
  | bool b, _, _, _ => reads_bool b
  | number n, _, _, hdoubles => reads_number fun x hx => hdoubles x (by subst hx; simp [doubles])
  | string s, _, _, _ => reads_string s
  | array items, _, hdepth, hdoubles => by
    obtain ⟨level, rfl, hitems⟩ := exists_level hdepth
    exact reads_array (reads_items items hitems hdoubles)
  | object members, _, hdepth, hdoubles => by
    obtain ⟨level, rfl, hbelow⟩ := exists_level hdepth
    have hmembers := reads_members members hbelow hdoubles
    have hobject := reads_object (List.forall_mem_map.2 hmembers :
      ∀ f ∈ members.toList.map fun p => (p.1, p.2.render, p.2.document), Reads level f.2.1 f.2.2)
    rw [List.map_map, List.map_map] at hobject
    rw [render_object, document, memberDocuments_eq]
    exact hobject

theorem reads_items : ∀ (items : List Json) {level : Nat}, itemsDepth items ≤ level →
    (∀ x ∈ itemsDoubles items, ReadsBack x) → ∀ j ∈ items, Reads level j.render j.document
  | [], _, _, _ => List.forall_mem_nil _
  | item :: items, level, hdepth, hdoubles => by
    rw [itemsDepth, Nat.max_le] at hdepth
    rw [itemsDoubles, List.forall_mem_append] at hdoubles
    exact List.forall_mem_cons.2
      ⟨reads_render item hdepth.1 hdoubles.1, reads_items items hdepth.2 hdoubles.2⟩

theorem reads_members : ∀ {lower : Option String} (m : Members lower) {level : Nat},
    membersDepth m ≤ level → (∀ x ∈ membersDoubles m, ReadsBack x) →
      ∀ p ∈ m.toList, Reads level p.2.render p.2.document
  | _, .nil, _, _, _ => List.forall_mem_nil _
  | _, .cons key _ value rest, level, hdepth, hdoubles => by
    rw [membersDepth, Nat.max_le] at hdepth
    rw [membersDoubles, List.forall_mem_append] at hdoubles
    exact List.forall_mem_cons.2
      ⟨reads_render value hdepth.1 hdoubles.1, reads_members rest hdepth.2 hdoubles.2⟩

end

/-- A text that is read as a document wherever it stands is read so alone. -/
theorem Reads.parse? (h : Reads maxDepth s d) : parse? (String.ofList s) = some d.value := by
  refine parse?_eq_some_iff.2 ⟨d, read_eq_ok_iff.2 ⟨[], ?_, rfl⟩, rfl⟩
  have hread := h.reads (2 * s.length + 2) [] (by omega) trivial
  rw [String.toList_ofList]
  rwa [List.append_nil] at hread

/-- The written form of a value is read back. -/
theorem parse?_toText {j : Json} (hdepth : j.depth ≤ maxDepth)
    (hdoubles : ∀ x ∈ j.doubles, ReadsBack x) : Json.parse? j.toText = some j :=
  ((reads_render j hdepth hdoubles).parse?).trans (congrArg some (value_document j))

end Json
end DuplexRpc
