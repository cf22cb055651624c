import DuplexRpc.Proofs.Address.Reading

/-!
Which texts are addresses. The grammar is that of the parts: a scheme before the first mark, and
behind it an authority, a path or both. A text outside of it is refused for its scheme if it has
none that is known, and as an invalid argument otherwise.
-/
namespace DuplexRpc.Address

open Text

variable {a rest : List Char} {u : String} {address : Address}

/-- An authority as it may be written: a literal in brackets that ends at the first closing one, or
any text without an opening bracket at its beginning, each with or without a port. -/
def IsAuthority (a : List Char) : Prop :=
  (∃ host tail, a = '[' :: (host ++ ']' :: tail) ∧ ']' ∉ host ∧
    (tail = [] ∨ ∃ port, tail = ':' :: port ∧ IsPort port)) ∨
  (∀ literal, a ≠ '[' :: literal) ∧
    (':' ∉ a ∨ ∃ host port, a = host ++ ':' :: port ∧ ':' ∉ port ∧ IsPort port)

/-- What may follow a scheme. -/
def IsRest : Scheme → List Char → Prop
  | .stdio, _ | .mem, _ => True
  | .unix, rest => rest ≠ []
  | .tcp, rest => IsAuthority rest
  | .ws, rest | .wss, rest => ∃ authority path, WebParts rest authority path ∧ IsAuthority authority

def IsWritten (u : List Char) : Prop := ∃ scheme rest,
  FirstCut schemeMark.toList u (Scheme.text scheme).toList rest ∧ IsRest scheme rest

theorem isAuthority_iff (defaultPort : UInt16) : IsAuthority a ↔ ∃ host raw port,
    Authority a host raw ∧ portValue defaultPort raw = some port := by
  constructor
  · rintro (⟨host, tail, rfl, hhost, rfl | ⟨raw, rfl, hraw⟩⟩ |
      ⟨hbare, hcolon | ⟨host, raw, rfl, hcolon, hraw⟩⟩)
    · exact ⟨host, none, defaultPort, .literal hhost, rfl⟩
    · obtain ⟨port, hport⟩ := (isPort_iff defaultPort).1 hraw
      exact ⟨host, some raw, port, .literalPort hhost, hport⟩
    · exact ⟨a, none, defaultPort, .bare hcolon hbare, rfl⟩
    · obtain ⟨port, hport⟩ := (isPort_iff defaultPort).1 hraw
      exact ⟨host, some raw, port,
        .barePort hcolon fun literal heq => hbare _ (by rw [heq]; rfl), hport⟩
  · rintro ⟨host, raw, port, h, hport⟩
    cases h with
    | literal h => exact .inl ⟨host, [], rfl, h, .inl rfl⟩
    | literalPort h =>
      exact .inl ⟨host, _, rfl, h, .inr ⟨_, rfl, (isPort_iff defaultPort).2 ⟨port, hport⟩⟩⟩
    | bare h hbare => exact .inr ⟨hbare, .inl h⟩
    | barePort h hbare =>
      exact .inr ⟨append_colon_ne_bracket hbare _,
        .inr ⟨host, _, rfl, h, (isPort_iff defaultPort).2 ⟨port, hport⟩⟩⟩

theorem isRest_iff {scheme : Scheme} :
    IsRest scheme rest ↔ ∃ address, Denotes scheme rest address := by
  have hweb (scheme : Scheme) (defaultPort : UInt16) (secure : Bool) :
      (∃ authority path, WebParts rest authority path ∧ IsAuthority authority) ↔
        ∃ address, DenotesWeb scheme defaultPort secure rest address := by
    simp only [isAuthority_iff defaultPort]
    constructor
    · rintro ⟨authority, path, hparts, host, raw, port, h, hport⟩
      exact ⟨_, authority, path, host, raw, port, hparts, h, hport, rfl⟩
    · rintro ⟨address, authority, path, host, raw, port, hparts, h, hport, -⟩
      exact ⟨authority, path, hparts, host, raw, port, h, hport⟩
  cases scheme with
  | tcp =>
    refine (isAuthority_iff defaultTcpPort).trans ⟨?_, ?_⟩
    · rintro ⟨host, raw, port, h, hport⟩
      exact ⟨_, host, raw, port, h, hport, rfl⟩
    · rintro ⟨address, host, raw, port, h, hport, -⟩
      exact ⟨host, raw, port, h, hport⟩
  | unix => simp [IsRest, Denotes]
  | stdio | mem => simp [IsRest, Denotes]
  | ws => exact hweb .ws defaultWsPort false
  | wss => exact hweb .wss defaultWssPort true

theorem exists_parse_iff (u : String) :
    (∃ address, parse u = .ok address) ↔ IsWritten u.toList := by
  simp only [parse_eq_ok_iff, read_eq_ok_iff, IsWritten, isRest_iff]
  constructor
  · rintro ⟨address, scheme, rest, hcut, h⟩
    exact ⟨scheme, rest, hcut, address, h⟩
  · rintro ⟨scheme, rest, hcut, address, h⟩
    exact ⟨address, scheme, rest, hcut, h⟩

/-- A text is accepted exactly if it is written by the grammar. It is refused for its scheme, as a
whole, exactly if it has no mark or something else than a scheme before the first one, and as an
invalid argument if neither is the case. -/
theorem parse_accepts_exactly_written (u : String) :
    ((∃ address, parse u = .ok address) ↔ IsWritten u.toList) ∧
    (parse u = .error (.unsupportedScheme u) ↔ IsUnnamed u.toList) ∧
    ((∃ message, parse u = .error (.invalidArgument message)) ↔
      ¬ IsWritten u.toList ∧ ¬ IsUnnamed u.toList) := by
  refine ⟨exists_parse_iff u, ⟨fun h => ?_, fun h => ?_⟩, ?_⟩
  · obtain ⟨hunnamed, -⟩ | ⟨-, message, hmessage⟩ := parse_refused h
    · exact hunnamed
    · cases hmessage
  · rw [parse, read_of_isUnnamed h]
    rfl
  rw [← exists_parse_iff]
  constructor
  · rintro ⟨message, h⟩
    refine ⟨by simp [h], ?_⟩
    obtain ⟨-, hfailure⟩ | ⟨hnamed, -⟩ := parse_refused h
    · cases hfailure
    · exact hnamed
  · rintro ⟨hrefused, hnamed⟩
    cases h : parse u with
    | ok address => exact absurd ⟨address, h⟩ hrefused
    | error failure =>
      obtain ⟨hunnamed, -⟩ | ⟨-, message, rfl⟩ := parse_refused h
      · exact absurd hunnamed hnamed
      · exact ⟨message, rfl⟩

/-- The last colon ends the host, wherever else there are colons. -/
example : (parse "tcp://:::7000").toOption = some ⟨.tcp, "::", 7000, "", false⟩ ∧
    (parse "tcp://a:b:+7x").toOption = none := by
  decide +kernel

end DuplexRpc.Address
