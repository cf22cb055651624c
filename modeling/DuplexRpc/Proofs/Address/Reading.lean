import DuplexRpc.Address.Grammar
import DuplexRpc.Proofs.Text.Cut
import Mathlib.Data.List.Induction
import Mathlib.Data.Nat.Digits.Defs

/-!
What a text means as an address. An authority is made of a host and the text of a port in one of
four ways; what follows the scheme is made of an authority, a path or both. Reading accepts exactly
what is made so, and gives the address that it means.
-/
namespace DuplexRpc.Address

open Text

variable {raw a host : List Char} {port defaultPort : UInt16}

/-- A port as it may be written: nothing, or digits behind an optional plus, up to 65535. -/
def IsPort (raw : List Char) : Prop :=
  raw = [] ∨ ∃ digits, (raw = digits ∨ raw = '+' :: digits) ∧ digits ≠ [] ∧
    (∀ c ∈ digits, c.isDigit = true) ∧
    Nat.ofDigits 10 (digits.reverse.map fun c => c.toNat - '0'.toNat) ≤ 65535

/-- The reader of ports values a digit by its place. -/
theorem decimalValue_eq_ofDigits (digits : List Char) :
    decimalValue digits = Nat.ofDigits 10 (digits.reverse.map fun c => c.toNat - '0'.toNat) := by
  induction digits using List.reverseRecOn with
  | nil => rfl
  | append_singleton digits c ih =>
    rw [List.reverse_append, List.reverse_singleton, List.singleton_append, List.map_cons,
      Nat.ofDigits_cons, ← ih, decimalValue, List.foldl_append]
    exact Nat.add_comm _ _

/-- A port without its plus. -/
def unsigned : List Char → List Char
  | '+' :: rest => rest
  | raw => raw

/-- The digits are told apart from the plus by being digits. -/
theorem eq_unsigned_iff {digits : List Char} (hdigits : ∀ c ∈ digits, c.isDigit = true) :
    raw = digits ∨ raw = '+' :: digits ↔ digits = unsigned raw := by
  unfold unsigned
  split
  next rest =>
    constructor
    · rintro (rfl | h)
      · simp at hdigits
      · exact (List.cons.inj h).2.symm
    · rintro rfl
      exact .inr rfl
  next hplus =>
    constructor
    · rintro (rfl | rfl)
      · rfl
      · exact absurd rfl (hplus _)
    · rintro rfl
      exact .inl rfl

/-- What the reading of a port checks of its digits. -/
def isChecked (digits : List Char) : Bool :=
  !digits.isEmpty && digits.all Char.isDigit && decimalValue digits < 65536

theorem isChecked_iff {digits : List Char} : isChecked digits = true ↔
    digits ≠ [] ∧ (∀ c ∈ digits, c.isDigit = true) ∧ decimalValue digits < 65536 := by
  simp [isChecked, and_assoc]

theorem port?_eq (raw : List Char) : port? raw =
    if isChecked (unsigned raw) then some (.ofNat (decimalValue (unsigned raw))) else none :=
  rfl

theorem port?_eq_some_iff : port? raw = some port ↔ ∃ digits,
    (raw = digits ∨ raw = '+' :: digits) ∧ digits ≠ [] ∧ (∀ c ∈ digits, c.isDigit = true) ∧
      decimalValue digits = port.toNat := by
  rw [port?_eq]
  constructor
  · intro h
    split at h
    next hchecked =>
      obtain ⟨hne, hdigits, hlt⟩ := isChecked_iff.1 hchecked
      cases h
      exact ⟨unsigned raw, (eq_unsigned_iff hdigits).2 rfl, hne, hdigits,
        (UInt16.toNat_ofNat_of_lt' hlt).symm⟩
    next => cases h
  · rintro ⟨digits, hraw, hne, hdigits, hvalue⟩
    obtain rfl := (eq_unsigned_iff hdigits).1 hraw
    have hchecked := isChecked_iff.2 ⟨hne, hdigits, hvalue ▸ port.toNat_lt⟩
    rw [if_pos hchecked, hvalue, UInt16.ofNat_toNat]

/-- The port that the text behind the colon stands for, if there is any. -/
def portValue (defaultPort : UInt16) : Option (List Char) → Option UInt16
  | none | some [] => some defaultPort
  | some raw => port? raw

theorem portValue_of_ne_nil (h : raw ≠ []) : portValue defaultPort (some raw) = port? raw := by
  cases raw with
  | nil => exact absurd rfl h
  | cons c cs => rfl

theorem isPort_iff (defaultPort : UInt16) :
    IsPort raw ↔ ∃ port, portValue defaultPort (some raw) = some port := by
  by_cases hraw : raw = []
  · simp [IsPort, portValue, hraw]
  · rw [portValue_of_ne_nil hraw]
    simp only [IsPort, hraw, false_or, port?_eq_some_iff, ← decimalValue_eq_ofDigits]
    constructor
    · rintro ⟨digits, heq, hne, hd, hle⟩
      exact ⟨.ofNat (decimalValue digits), digits, heq, hne, hd,
        (UInt16.toNat_ofNat_of_lt' (Nat.lt_succ_of_le hle)).symm⟩
    · rintro ⟨port, digits, heq, hne, hd, hvalue⟩
      exact ⟨digits, heq, hne, hd, by have := port.toNat_lt; omega⟩

/-- An authority that is made of a host and, behind a colon, the text of a port. -/
inductive Authority : List Char → List Char → Option (List Char) → Prop where
  | literal {host : List Char} (h : ']' ∉ host) : Authority ('[' :: (host ++ [']'])) host none
  | literalPort {host port : List Char} (h : ']' ∉ host) :
    Authority ('[' :: (host ++ ']' :: ':' :: port)) host (some port)
  | bare {host : List Char} (h : ':' ∉ host) (hbare : ∀ literal, host ≠ '[' :: literal) :
    Authority host host none
  | barePort {host port : List Char} (h : ':' ∉ port) (hbare : ∀ literal, host ≠ '[' :: literal) :
    Authority (host ++ ':' :: port) host (some port)

theorem splitAuthority_of_bare (hbare : ∀ literal, a ≠ '[' :: literal) :
    splitAuthority a = .ok ((cutLast? ':' a).elim (a, none) fun p => (p.1, some p.2)) := by
  unfold splitAuthority
  split
  next literal => exact absurd rfl (hbare literal)
  next => cases cutLast? ':' a <;> rfl

theorem append_colon_ne_bracket (hbare : ∀ literal, host ≠ '[' :: literal) (raw : List Char) :
    ∀ literal, host ++ ':' :: raw ≠ '[' :: literal := by
  cases host with
  | nil => simp
  | cons c cs =>
    rintro literal heq
    obtain ⟨rfl, -⟩ := List.cons.inj heq
    exact hbare cs rfl

theorem splitAuthority_eq_ok_iff {raw : Option (List Char)} :
    splitAuthority a = .ok (host, raw) ↔ Authority a host raw := by
  constructor
  · intro h
    unfold splitAuthority at h
    split at h
    next literal =>
      split at h
      · cases h
      next hcut =>
        obtain ⟨rfl, hhost⟩ := cut?_singleton_eq_some_iff.1 hcut
        cases h
        exact .literal hhost
      next hcut =>
        obtain ⟨rfl, hhost⟩ := cut?_singleton_eq_some_iff.1 hcut
        cases h
        exact .literalPort hhost
      · cases h
    next hbare =>
      split at h
      next hcut =>
        obtain ⟨rfl, hport⟩ := cutLast?_eq_some_iff.1 hcut
        cases h
        exact .barePort hport fun literal heq => hbare _ (by rw [heq]; rfl)
      next hcut =>
        cases h
        exact .bare (cutLast?_eq_none_iff.1 hcut) hbare
  · intro h
    cases h with
    | literal h => rw [splitAuthority, cut?_singleton_eq_some_iff.2 ⟨rfl, h⟩]
    | literalPort h =>
      rw [splitAuthority, cut?_singleton_eq_some_iff.2 ⟨rfl, h⟩]
      rfl
    | bare h hbare => rw [splitAuthority_of_bare hbare, cutLast?_eq_none_iff.2 h]; rfl
    | barePort h hbare =>
      rw [splitAuthority_of_bare (append_colon_ne_bracket hbare _),
        cutLast?_eq_some_iff.2 ⟨rfl, h⟩]
      rfl

/-- An empty host stands for the default one. -/
def hostText (host : List Char) : String := if host.isEmpty then defaultHost else String.ofList host

theorem readAuthority_eq (defaultPort : UInt16) (a : List Char) :
    readAuthority defaultPort a = (splitAuthority a).bind fun (host, raw) =>
      match portValue defaultPort raw with
      | some port => .ok (hostText host, port)
      | none => .error (.invalidPort (raw.getD [])) := by
  unfold readAuthority
  cases splitAuthority a with
  | error fault => rfl
  | ok p =>
    obtain ⟨host, raw⟩ := p
    match raw with
    | none | some [] => rfl
    | some (c :: cs) =>
      have hvalue : portValue defaultPort (some (c :: cs)) = port? (c :: cs) := rfl
      simp only [hvalue, bind, Except.bind]
      cases port? (c :: cs) <;> rfl

theorem readAuthority_eq_ok_iff {text : String} : readAuthority defaultPort a = .ok (text, port) ↔
    ∃ host raw, Authority a host raw ∧ text = hostText host ∧
      portValue defaultPort raw = some port := by
  rw [readAuthority_eq]
  constructor
  · intro h
    cases hsplit : splitAuthority a with
    | error fault =>
      rw [hsplit] at h
      cases h
    | ok p =>
      obtain ⟨host, raw⟩ := p
      cases hvalue : portValue defaultPort raw with
      | none => simp [hsplit, Except.bind, hvalue] at h
      | some value =>
        simp only [hsplit, Except.bind, hvalue, Except.ok.injEq, Prod.mk.injEq] at h
        exact ⟨host, raw, splitAuthority_eq_ok_iff.1 hsplit, h.1.symm, hvalue.trans (by rw [h.2])⟩
  · rintro ⟨host, raw, hauthority, rfl, hvalue⟩
    simp only [splitAuthority_eq_ok_iff.2 hauthority, Except.bind, hvalue]

/-- Whatever is wrong with an authority, it is not the scheme. -/
theorem readAuthority_ne_unknownScheme (defaultPort : UInt16) (a : List Char) :
    readAuthority defaultPort a ≠ .error .unknownScheme := by
  have hsplit : splitAuthority a ≠ .error .unknownScheme := by
    unfold splitAuthority
    split <;> split <;> simp
  rw [readAuthority_eq]
  cases h : splitAuthority a with
  | error fault =>
    rw [h] at hsplit
    simpa [Except.bind] using hsplit
  | ok p =>
    obtain ⟨host, raw⟩ := p
    cases hvalue : portValue defaultPort raw <;> simp [Except.bind, hvalue]

/-- The parts of a web address: the authority ends at the first slash. -/
def WebParts (rest authority path : List Char) : Prop :=
  rest = authority ++ path ∧ '/' ∉ authority ∧ (path = [] ∨ ∃ tail, path = '/' :: tail)

theorem webParts_iff {rest authority path : List Char} : WebParts rest authority path ↔
    authority = rest.takeWhile (· != '/') ∧ path = rest.dropWhile (· != '/') := by
  constructor
  · rintro ⟨rfl, hslash, hpath⟩
    have hall (c : Char) (hc : c ∈ authority) : (c != '/') = true := by
      rw [bne_iff_ne]
      rintro rfl
      exact hslash hc
    rw [List.takeWhile_append_of_pos hall, List.dropWhile_append_of_pos hall]
    obtain rfl | ⟨tail, rfl⟩ := hpath <;> simp
  · rintro ⟨rfl, rfl⟩
    refine ⟨List.takeWhile_append_dropWhile.symm, fun hmem => ?_, ?_⟩
    · simpa using List.all_eq_true.1 List.all_takeWhile '/' hmem
    · cases h : rest.dropWhile (· != '/') with
      | nil => exact .inl rfl
      | cons c tail =>
        have hc := List.head_dropWhile_not (p := (· != '/')) (l := rest) (by simp [h])
        simp only [h, List.head_cons, bne_eq_false_iff_eq] at hc
        exact .inr ⟨tail, by rw [hc]⟩

variable {u rest : List Char} {address : Address} {scheme : Scheme}

/-- What an authority with a path means. -/
def DenotesWeb (scheme : Scheme) (defaultPort : UInt16) (secure : Bool) (rest : List Char)
    (address : Address) : Prop :=
  ∃ authority path host raw port, WebParts rest authority path ∧ Authority authority host raw ∧
    portValue defaultPort raw = some port ∧
      address = ⟨scheme, hostText host, port, readPath path, secure⟩

/-- What the text behind a scheme means. -/
def Denotes : Scheme → List Char → Address → Prop
  | .tcp, rest, address => ∃ host raw port, Authority rest host raw ∧
    portValue defaultTcpPort raw = some port ∧ address = ⟨.tcp, hostText host, port, "", false⟩
  | .unix, rest, address => rest ≠ [] ∧ address = ⟨.unix, "", 0, String.ofList rest, false⟩
  | .stdio, rest, address => address = ⟨.stdio, "", 0, String.ofList rest, false⟩
  | .mem, rest, address => address = ⟨.mem, "", 0, String.ofList rest, false⟩
  | .ws, rest, address => DenotesWeb .ws defaultWsPort false rest address
  | .wss, rest, address => DenotesWeb .wss defaultWssPort true rest address

theorem bind_readAuthority_eq_ok_iff (f : String × UInt16 → Address) :
    ((readAuthority defaultPort a).bind fun p => .ok (f p)) = .ok address ↔
      ∃ host raw port, Authority a host raw ∧ portValue defaultPort raw = some port ∧
        address = f (hostText host, port) := by
  constructor
  · intro h
    cases hread : readAuthority defaultPort a with
    | error fault =>
      rw [hread] at h
      cases h
    | ok p =>
      obtain ⟨host, raw, hauthority, htext, hport⟩ := readAuthority_eq_ok_iff.1 hread
      rw [hread] at h
      cases h
      exact ⟨host, raw, p.2, hauthority, hport, by rw [← htext]⟩
  · rintro ⟨host, raw, port, hauthority, hport, rfl⟩
    rw [readAuthority_eq_ok_iff.2 ⟨host, raw, hauthority, rfl, hport⟩]
    rfl

theorem bind_readAuthority_ne_unknownScheme (f : String × UInt16 → Address) :
    ((readAuthority defaultPort a).bind fun p => .ok (f p)) ≠ .error .unknownScheme := by
  have hread := readAuthority_ne_unknownScheme defaultPort a
  cases h : readAuthority defaultPort a with
  | error fault =>
    rw [h] at hread
    simpa [Except.bind] using hread
  | ok p => simp [Except.bind]

theorem readWeb_eq_ok_iff {secure : Bool} :
    read.readWeb scheme defaultPort secure rest = .ok address ↔
      DenotesWeb scheme defaultPort secure rest address := by
  refine (bind_readAuthority_eq_ok_iff _).trans ⟨?_, ?_⟩
  · rintro ⟨host, raw, port, h⟩
    exact ⟨_, _, host, raw, port, webParts_iff.2 ⟨rfl, rfl⟩, h⟩
  · rintro ⟨authority, path, host, raw, port, hparts, h⟩
    obtain ⟨rfl, rfl⟩ := webParts_iff.1 hparts
    exact ⟨host, raw, port, h⟩

/-- What follows a known scheme is read as what it means, and whatever is wrong with it, it is not
the scheme. -/
theorem read_of_scheme (hcut : FirstCut schemeMark.toList u scheme.text.toList rest) :
    (∀ address, read u = .ok address ↔ Denotes scheme rest address) ∧
      read u ≠ .error .unknownScheme := by
  have hscheme : Scheme.ofText? (String.ofList scheme.text.toList) = some scheme := by
    rw [String.ofList_toList]
    exact Scheme.ofText?_eq_some_iff.2 rfl
  unfold read
  rw [cut?_eq_some_iff.2 hcut]
  dsimp only
  rw [hscheme]
  cases scheme with
  | tcp =>
    exact ⟨fun _ => bind_readAuthority_eq_ok_iff _, bind_readAuthority_ne_unknownScheme _⟩
  | unix => cases rest <;> simp [Denotes, eq_comm]
  | stdio | mem => simp [Denotes, eq_comm]
  | ws | wss => exact ⟨fun _ => readWeb_eq_ok_iff, bind_readAuthority_ne_unknownScheme _⟩

/-- The text has no scheme mark, or before the first one no scheme. -/
def IsUnnamed (u : List Char) : Prop :=
  (∀ before after, u ≠ before ++ schemeMark.toList ++ after) ∨
    ∃ before after, FirstCut schemeMark.toList u before after ∧
      ∀ scheme : Scheme, before ≠ scheme.text.toList

theorem isUnnamed_or_scheme (u : List Char) : IsUnnamed u ∨
    ∃ scheme rest, FirstCut schemeMark.toList u (Scheme.text scheme).toList rest := by
  cases hcut : cut? schemeMark.toList u with
  | none => exact .inl (.inl (cut?_eq_none_iff.1 hcut))
  | some p =>
    have hfirst := cut?_eq_some_iff.1 hcut
    by_cases hscheme : ∃ scheme : Scheme, p.1 = scheme.text.toList
    · obtain ⟨scheme, heq⟩ := hscheme
      exact .inr ⟨scheme, p.2, heq ▸ hfirst⟩
    · exact .inl (.inr ⟨p.1, p.2, hfirst, not_exists.1 hscheme⟩)

theorem IsUnnamed.not_scheme (h : IsUnnamed u) (scheme : Scheme) (rest : List Char) :
    ¬ FirstCut schemeMark.toList u scheme.text.toList rest := by
  intro hcut
  obtain hnone | ⟨before, after, hfirst, hscheme⟩ := h
  · exact hnone _ _ hcut.eq
  · exact hscheme scheme (hfirst.unique hcut).1

theorem read_of_isUnnamed (h : IsUnnamed u) : read u = .error .unknownScheme := by
  unfold read
  cases hcut : cut? schemeMark.toList u with
  | none => rfl
  | some p =>
    have hnone : Scheme.ofText? (String.ofList p.1) = none := by
      refine Option.eq_none_iff_forall_ne_some.2 fun scheme hscheme => ?_
      have htext := Scheme.ofText?_eq_some_iff.1 hscheme
      have hleft : p.1 = scheme.text.toList := by rw [← htext, String.toList_ofList]
      exact h.not_scheme scheme p.2 (hleft ▸ cut?_eq_some_iff.1 hcut)
    dsimp only
    rw [hnone]

theorem read_eq_unknownScheme_iff : read u = .error .unknownScheme ↔ IsUnnamed u := by
  refine ⟨fun h => ?_, read_of_isUnnamed⟩
  obtain hunnamed | ⟨scheme, rest, hcut⟩ := isUnnamed_or_scheme u
  · exact hunnamed
  · exact absurd h (read_of_scheme hcut).2

/-- A text is read as what the part behind its scheme means. -/
theorem read_eq_ok_iff : read u = .ok address ↔ ∃ scheme rest,
    FirstCut schemeMark.toList u (Scheme.text scheme).toList rest ∧
      Denotes scheme rest address := by
  constructor
  · intro h
    obtain hunnamed | ⟨scheme, rest, hcut⟩ := isUnnamed_or_scheme u
    · cases (read_of_isUnnamed hunnamed).symm.trans h
    · exact ⟨scheme, rest, hcut, ((read_of_scheme hcut).1 address).1 h⟩
  · rintro ⟨scheme, rest, hcut, h⟩
    exact ((read_of_scheme hcut).1 address).2 h

theorem parse_eq_ok_iff {u : String} : parse u = .ok address ↔ read u.toList = .ok address := by
  unfold parse
  constructor
  · intro h
    cases hread : read u.toList with
    | error fault => cases hread ▸ h
    | ok found =>
      cases hread ▸ h
      rfl
  · intro h
    rw [h]
    rfl

theorem Fault.toFailure_cases (fault : Fault) (u : String) :
    (fault = .unknownScheme ∧ fault.toFailure u = .unsupportedScheme u) ∨
      fault ≠ .unknownScheme ∧ ∃ message, fault.toFailure u = .invalidArgument message := by
  cases fault with
  | unknownScheme => exact .inl ⟨rfl, rfl⟩
  | _ => exact .inr ⟨nofun, _, rfl⟩

/-- A text that is no address is refused for its scheme if it has none, and as an invalid argument
otherwise. -/
theorem parse_refused {u : String} {failure : Failure} (h : parse u = .error failure) :
    (IsUnnamed u.toList ∧ failure = .unsupportedScheme u) ∨
      ¬ IsUnnamed u.toList ∧ ∃ message, failure = .invalidArgument message := by
  rw [← read_eq_unknownScheme_iff]
  unfold parse at h
  cases hread : read u.toList with
  | ok address =>
    rw [hread] at h
    cases h
  | error fault =>
    rw [hread] at h
    cases h
    simpa using fault.toFailure_cases u

end DuplexRpc.Address
