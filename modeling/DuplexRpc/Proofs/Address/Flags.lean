import DuplexRpc.Address.Flags
import DuplexRpc.Proofs.Address.Normal

/-!
Which address the flags choose. The first flag alone decides. The value of a port flag is written
behind an empty host and read like any other address, so it names a port and nothing else exactly if
it has no colon; what stands before its last colon becomes part of the host. Options that have been
read have lost their order, and there a listen flag goes before every port flag.
-/
namespace DuplexRpc.Address

open Text

variable {before after : List String} {p : String} {cs host : List Char} {address : Address}

def IsFlag (arg : String) : Prop := arg = listenFlag ∨ arg = portFlag

instance (arg : String) : Decidable (IsFlag arg) := inferInstanceAs (Decidable (_ ∨ _))

theorem ofFlags_append (h : ∀ arg ∈ before, ¬ IsFlag arg) (args : List String) :
    ofFlags (before ++ args) = ofFlags args := by
  induction before with
  | nil => rfl
  | cons arg before ih =>
    obtain ⟨hlisten, hport⟩ := not_or.1 (h arg List.mem_cons_self)
    rw [List.cons_append, ofFlags.eq_def]
    dsimp only
    rw [if_neg hlisten, if_neg hport]
    exact ih fun arg harg => h arg (List.mem_cons_of_mem _ harg)

theorem ofFlags_listen (uri : String) (args : List String) :
    ofFlags (listenFlag :: uri :: args) = uri := by
  simp [ofFlags]

theorem ofFlags_port (p : String) (args : List String) :
    ofFlags (portFlag :: p :: args) = ofPortText p := by
  simp [ofFlags, portFlag, listenFlag]

theorem ofPortText_eq (p : String) : ofPortText p = withScheme .tcp (':' :: p.toList) := by
  rw [← String.toList_inj, withScheme, String.toList_ofList]
  simp [ofPortText, Scheme.text, schemeMark]

/-- Behind an empty host the last colon is the one that was put there, or one of the value. -/
theorem authority_colon_iff {raw : Option (List Char)} : Authority (':' :: cs) host raw ↔
    ∃ text, raw = some text ∧ ':' ∉ text ∧
      (host = [] ∧ cs = text ∨ ∃ front, host = ':' :: front ∧ cs = front ++ ':' :: text) := by
  have hcut (text : List Char) : ':' :: cs = host ++ ':' :: text ↔
      (host = [] ∧ cs = text) ∨ ∃ front, host = ':' :: front ∧ cs = front ++ ':' :: text := by
    cases host with
    | nil => simp
    | cons c front =>
      simp only [List.cons_append, List.cons.injEq, reduceCtorEq, false_and, false_or]
      constructor
      · rintro ⟨rfl, hcs⟩
        exact ⟨front, ⟨rfl, rfl⟩, hcs⟩
      · rintro ⟨_, ⟨rfl, rfl⟩, hcs⟩
        exact ⟨rfl, hcs⟩
  constructor
  · intro h
    generalize ha : ':' :: cs = a at h
    cases h with
    | literal h | literalPort h => cases ha
    | bare h hbare => exact absurd (ha ▸ List.mem_cons_self) h
    | barePort h hbare => exact ⟨_, rfl, h, (hcut _).1 ha⟩
  · rintro ⟨text, rfl, htext, hsplit⟩
    rw [(hcut text).2 hsplit]
    refine .barePort htext fun literal hliteral => ?_
    obtain ⟨rfl, -⟩ | ⟨front, rfl, -⟩ := hsplit <;> cases hliteral

/-- The value is a port, or empty for the default one, and the address is that port of every
interface. -/
def NamesPort (p : String) (address : Address) : Prop :=
  IsPort p.toList ∧ ∃ port, portValue defaultTcpPort (some p.toList) = some port ∧
    address = ⟨.tcp, defaultHost, port, "", false⟩

/-- The value is a port behind a colon, and the rest of it has become a host. -/
def NamesHost (p : String) (address : Address) : Prop :=
  ∃ front text port, p.toList = front ++ ':' :: text ∧ ':' ∉ text ∧
    portValue defaultTcpPort (some text) = some port ∧
      address = ⟨.tcp, String.ofList (':' :: front), port, "", false⟩

theorem colon_not_mem_of_isPort {raw : List Char} (h : IsPort raw) : ':' ∉ raw := by
  obtain rfl | ⟨digits, hraw, -, hdigits, -⟩ := h
  · exact List.not_mem_nil
  · have hnone : ':' ∉ digits := fun hmem => by simpa using hdigits _ hmem
    obtain rfl | rfl := hraw
    · exact hnone
    · simpa using hnone

theorem parse_ofPortText_eq_ok_iff :
    parse (ofPortText p) = .ok address ↔ NamesPort p address ∨ NamesHost p address := by
  rw [ofPortText_eq, parse_withScheme_eq_ok_iff]
  constructor
  · rintro ⟨host, raw, port, hauthority, hport, rfl⟩
    obtain ⟨text, rfl, htext, ⟨rfl, rfl⟩ | ⟨front, rfl, hp⟩⟩ := authority_colon_iff.1 hauthority
    · exact .inl ⟨(isPort_iff defaultTcpPort).2 ⟨port, hport⟩, port, hport, rfl⟩
    · exact .inr ⟨front, text, port, hp, htext, hport, rfl⟩
  · rintro (⟨hp, port, hport, rfl⟩ | ⟨front, text, port, hp, htext, hport, rfl⟩)
    · exact ⟨[], _, port,
        authority_colon_iff.2 ⟨_, rfl, colon_not_mem_of_isPort hp, .inl ⟨rfl, rfl⟩⟩, hport, rfl⟩
    · exact ⟨':' :: front, _, port,
        authority_colon_iff.2 ⟨text, rfl, htext, .inr ⟨front, rfl, hp⟩⟩, hport, rfl⟩

/-- If the first flag is a port flag, its value is accepted exactly as a port or as a host and a
port. What is accepted names a port and nothing else exactly if it has no colon. -/
theorem port_flag_names_port_iff (hfirst : ∀ arg ∈ before, ¬ IsFlag arg) :
    (parse (ofFlags (before ++ portFlag :: p :: after)) = .ok address ↔
      NamesPort p address ∨ NamesHost p address) ∧
    (parse (ofFlags (before ++ portFlag :: p :: after)) = .ok address →
      (NamesPort p address ↔ ':' ∉ p.toList)) := by
  rw [ofFlags_append hfirst, ofFlags_port, parse_ofPortText_eq_ok_iff]
  refine ⟨.rfl, fun h => ⟨fun hport => colon_not_mem_of_isPort hport.1, fun hcolon => ?_⟩⟩
  obtain hport | ⟨front, text, port, hp, -⟩ := h
  · exact hport
  · simp [hp] at hcolon

theorem port_flag_names_port_iff_leading_zero :
    (∀ arg ∈ ["serve", "-p"], ¬ IsFlag arg) ∧
      parse (ofFlags (["serve", "-p"] ++ portFlag :: "+080" :: ["--listen", "mem://"])) =
        .ok ⟨.tcp, "0.0.0.0", 80, "", false⟩ ∧
      NamesPort "+080" ⟨.tcp, "0.0.0.0", 80, "", false⟩ := by
  have hfirst : ∀ arg ∈ ["serve", "-p"], ¬ IsFlag arg := by decide
  have hread : parse (ofFlags (["serve", "-p"] ++ portFlag :: "+080" :: ["--listen", "mem://"])) =
      .ok ⟨.tcp, "0.0.0.0", 80, "", false⟩ := rfl
  exact ⟨hfirst, hread, ((port_flag_names_port_iff hfirst).2 hread).2 (by decide)⟩

/-- A port flag whose value names the host of the address, and that is no port. -/
theorem port_flag_names_host :
    parse (ofFlags [portFlag, ":1:80"]) = .ok ⟨.tcp, "::1", 80, "", false⟩ ∧
      ¬ NamesPort ":1:80" ⟨.tcp, "::1", 80, "", false⟩ :=
  ⟨rfl, fun h => absurd (colon_not_mem_of_isPort h.1) (by decide)⟩

/-- A flag with its value. -/
inductive Choice where
  | listen (uri : String)
  | port (number : UInt16)
  deriving DecidableEq

namespace Choice

def arguments : Choice → List String
  | listen uri => [listenFlag, uri]
  | port number => [portFlag, portText number]

/-- The address that the flag names. -/
def text : Choice → String
  | listen uri => uri
  | port number => ofPortText (portText number)

def listen? : Choice → Option String
  | listen uri => some uri
  | port _ => none

def port? : Choice → Option UInt16
  | listen _ => none
  | port number => some number

end Choice

/-- A piece of an argument list: a flag with its value, or an argument that is neither. -/
inductive Piece where
  | flagged (choice : Choice)
  | other (arg : String) (h : ¬ IsFlag arg)

namespace Piece

def arguments : Piece → List String
  | flagged choice => choice.arguments
  | other arg _ => [arg]

def choice? : Piece → Option Choice
  | flagged choice => some choice
  | other .. => none

end Piece

def argumentsOf (pieces : List Piece) : List String := pieces.flatMap Piece.arguments

def choicesOf (pieces : List Piece) : List Choice := pieces.filterMap Piece.choice?

def firstListen? (choices : List Choice) : Option String := choices.findSome? Choice.listen?

def firstPort? (choices : List Choice) : Option UInt16 := choices.findSome? Choice.port?

theorem ofFlags_choice (choice : Choice) (args : List String) :
    ofFlags (choice.arguments ++ args) = choice.text := by
  cases choice with
  | listen uri => exact ofFlags_listen uri args
  | port number => exact ofFlags_port (portText number) args

/-- The first choice decides. -/
theorem ofFlags_argumentsOf (pieces : List Piece) :
    ofFlags (argumentsOf pieces) = (choicesOf pieces).head?.elim defaultText Choice.text := by
  induction pieces with
  | nil => rfl
  | cons piece pieces ih =>
    rw [argumentsOf, List.flatMap_cons]
    cases piece with
    | flagged choice => exact ofFlags_choice choice _
    | other arg h =>
      rw [show choicesOf (.other arg h :: pieces) = choicesOf pieces from rfl, ← ih]
      exact ofFlags_append (by simpa [Piece.arguments] using h) _

/-- Flags and options that have been read choose alike unless the first choice is a port and a later
one listens to something else; then the flags choose that port, and the options do not. -/
theorem flags_and_options_agree_iff (pieces : List Piece) :
    (ofFlags (argumentsOf pieces) =
        ofOptions (firstListen? (choicesOf pieces)) (firstPort? (choicesOf pieces)) ↔
      ∀ number uri, (choicesOf pieces).head? = some (.port number) →
        firstListen? (choicesOf pieces) = some uri → uri = ofPortText (portText number)) ∧
    ∀ number uri, (choicesOf pieces).head? = some (.port number) →
      firstListen? (choicesOf pieces) = some uri →
        ofFlags (argumentsOf pieces) = ofPortText (portText number) ∧
          ofOptions (firstListen? (choicesOf pieces)) (firstPort? (choicesOf pieces)) = uri := by
  rw [ofFlags_argumentsOf]
  cases choicesOf pieces with
  | nil => simp [firstListen?, firstPort?, ofOptions]
  | cons choice choices =>
    cases choice with
    | listen uri =>
      have hlisten : firstListen? (.listen uri :: choices) = some uri := rfl
      simp [hlisten, Choice.text, ofOptions]
    | port number =>
      have hport : firstPort? (.port number :: choices) = some number := rfl
      have hlisten : firstListen? (.port number :: choices) = firstListen? choices := rfl
      rw [hlisten, hport]
      cases firstListen? choices with
      | none => simp [Choice.text, ofOptions]
      | some uri => simp [Choice.text, ofOptions, eq_comm]

/-- A port, and an address to listen on behind it. -/
def portThenListen : List Piece := [.flagged (.port 3000), .flagged (.listen "unix:///tmp/h.sock")]

theorem flags_and_options_differ :
    argumentsOf portThenListen = ["--port", "3000", "--listen", "unix:///tmp/h.sock"] ∧
      ofFlags (argumentsOf portThenListen) = "tcp://:3000" ∧
      ofOptions (firstListen? (choicesOf portThenListen)) (firstPort? (choicesOf portThenListen)) =
        "unix:///tmp/h.sock" ∧
      ofFlags (argumentsOf portThenListen) ≠ ofOptions (firstListen? (choicesOf portThenListen))
        (firstPort? (choicesOf portThenListen)) :=
  ⟨rfl, rfl, rfl, by decide +kernel⟩

theorem flags_and_options_agree_iff_naming_port :
    ofFlags (argumentsOf [.flagged (.port 7), .other "-v" (by decide),
        .flagged (.listen "tcp://:7")]) = ofOptions (some "tcp://:7") (some 7) ∧
      ((choicesOf portThenListen).head? = some (.port 3000) ∧
        firstListen? (choicesOf portThenListen) = some "unix:///tmp/h.sock" ∧
        ofFlags (argumentsOf portThenListen) = ofPortText (portText 3000)) := by
  have hagree := (flags_and_options_agree_iff [.flagged (.port 7), .other "-v" (by decide),
    .flagged (.listen "tcp://:7")]).1.2 fun number uri hport huri => by
      cases hport
      cases huri
      rfl
  have hdiffer := (flags_and_options_agree_iff portThenListen).2 3000 "unix:///tmp/h.sock" rfl rfl
  exact ⟨hagree, rfl, rfl, hdiffer.1⟩

end DuplexRpc.Address
