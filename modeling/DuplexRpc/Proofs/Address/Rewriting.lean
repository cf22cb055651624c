import DuplexRpc.Proofs.Address.Normal

/-!
Writing an address that has been read, and reading it again. A host is put in brackets for its
colons alone, so a closing bracket in it, or an opening one that nothing closes, makes another
authority of it. All other addresses come back as they were; these are refused. An address that has
not been read comes back if, besides, nothing in it is left out when it is written.
-/
namespace DuplexRpc.Address

open Text

variable {a raw rest : List Char} {host : String} {port defaultPort : UInt16} {address : Address}

/-- A host that is found again in its written form. -/
def IsFaithfulHost (host : String) : Prop :=
  (':' ∈ host.toList ∧ ']' ∉ host.toList) ∨
    (':' ∉ host.toList ∧ ∀ tail, host.toList ≠ '[' :: tail)

/-- Only the schemes that write a host can lose it. -/
def IsFaithful (address : Address) : Prop :=
  match address.scheme with
  | .unix | .stdio | .mem => True
  | .tcp | .ws | .wss => IsFaithfulHost address.host

/-- The host and the port as they are written. -/
def uriAuthority (host : String) (port : UInt16) : List Char :=
  (bracketed host).toList ++ ':' :: (portText port).toList

/-- What is written behind the scheme. -/
def uriRest (address : Address) : List Char :=
  match address.scheme with
  | .tcp => uriAuthority address.host address.port
  | .unix | .stdio | .mem => address.path.toList
  | .ws | .wss => uriAuthority address.host address.port ++ address.path.toList

theorem toUri_eq (address : Address) :
    address.toUri = withScheme address.scheme address.uriRest := by
  obtain ⟨scheme, host, port, path, secure⟩ := address
  rw [← String.toList_inj, withScheme, String.toList_ofList]
  cases scheme <;> simp [toUri, uriRest, uriAuthority, Scheme.text, schemeMark]

theorem uriAuthority_of_colon (h : ':' ∈ host.toList) :
    uriAuthority host port = '[' :: (host.toList ++ ']' :: ':' :: (portText port).toList) := by
  simp [uriAuthority, bracketed, h]

theorem uriAuthority_of_no_colon (h : ':' ∉ host.toList) :
    uriAuthority host port = host.toList ++ ':' :: (portText port).toList := by
  simp [uriAuthority, bracketed, h]

theorem authority_uriAuthority (h : IsFaithfulHost host) (port : UInt16) :
    Authority (uriAuthority host port) host.toList (some (portText port).toList) := by
  obtain ⟨hcolon, hclosing⟩ | ⟨hcolon, hopening⟩ := h
  · rw [uriAuthority_of_colon hcolon]
    exact .literalPort hclosing
  · rw [uriAuthority_of_no_colon hcolon]
    exact .barePort (not_mem_portText rfl port) hopening

/-- No bracket is part of a port. -/
theorem closing_not_mem_of_portValue (h : portValue defaultPort (some raw) = some port) :
    ']' ∉ raw := by
  by_cases hraw : raw = []
  · simp [hraw]
  · rw [portValue_of_ne_nil hraw] at h
    obtain ⟨digits, hdigits, -, hall, -⟩ := port?_eq_some_iff.1 h
    have hnone : ']' ∉ digits := fun hmem => by simpa using hall _ hmem
    obtain rfl | rfl := hdigits
    · exact hnone
    · simpa using hnone

/-- An authority that begins with a bracket has its host before the first closing one. -/
theorem Authority.of_opening {text host' : List Char} {raw : Option (List Char)}
    (h : Authority ('[' :: text) host' raw) : ∃ after, text = host' ++ ']' :: after ∧
      ']' ∉ host' ∧ (after = [] ∨ ∃ digits, after = ':' :: digits ∧ raw = some digits) := by
  generalize heq : '[' :: text = a at h
  cases h with
  | literal h => exact ⟨[], (List.cons.inj heq).2, h, .inl rfl⟩
  | literalPort h => exact ⟨_, (List.cons.inj heq).2, h, .inr ⟨_, rfl, rfl⟩⟩
  | bare _ hbare => exact absurd heq.symm (hbare text)
  | barePort _ hbare => exact absurd heq.symm (append_colon_ne_bracket hbare _ text)

/-- The written form of a host that is not found again has no reading at all. -/
theorem portValue_of_not_isFaithfulHost {host' : List Char} {raw : Option (List Char)}
    {value : UInt16} (hhost : IsHost host) (hlost : ¬ IsFaithfulHost host)
    (h : Authority (uriAuthority host port) host' raw) :
    portValue defaultPort raw ≠ some value := by
  intro hvalue
  unfold IsFaithfulHost at hlost
  by_cases hcolon : ':' ∈ host.toList
  · -- The host has a closing bracket of its own, and the authority ends there.
    have hclosing : ']' ∈ host.toList := by simpa [hcolon] using hlost
    rw [uriAuthority_of_colon hcolon] at h
    obtain ⟨after, htext, hfirst, hafter⟩ := h.of_opening
    obtain ⟨before, tail, hsplit, hbefore⟩ := List.eq_append_cons_of_mem hclosing
    have hcut : after = tail ++ ']' :: ':' :: (portText port).toList := by
      have hown := cut?_singleton_eq_some_iff.2 ⟨htext, hfirst⟩
      rw [hsplit, List.append_assoc, List.cons_append,
        cut?_singleton_eq_some_iff.2 ⟨rfl, hbefore⟩] at hown
      exact (Prod.mk.inj (Option.some.inj hown)).2.symm
    obtain rfl | ⟨digits, rfl, rfl⟩ := hafter
    · simp at hcut
    · have hmem : ']' ∈ ':' :: digits := by simp [hcut]
      exact closing_not_mem_of_portValue hvalue (by simpa using hmem)
  · -- The host opens a literal that nothing closes.
    obtain ⟨tail, hopening⟩ : ∃ tail, host.toList = '[' :: tail := by simpa [hcolon] using hlost
    have hclosing : ']' ∉ host.toList := fun hmem => hhost.2 ⟨⟨tail, hopening⟩, hmem⟩
    rw [uriAuthority_of_no_colon hcolon, hopening, List.cons_append] at h
    obtain ⟨after, htext, -⟩ := h.of_opening
    have hmem : ']' ∈ tail ++ ':' :: (portText port).toList := by simp [htext]
    have hport := not_mem_portText (c := ']') rfl port
    have htail : ']' ∈ tail := by simpa [hport] using hmem
    exact hclosing (by simp [hopening, htail])

theorem slash_not_mem_uriAuthority (h : '/' ∉ host.toList) (port : UInt16) :
    '/' ∉ uriAuthority host port := by
  have hport := not_mem_portText (c := '/') rfl port
  by_cases hcolon : ':' ∈ host.toList
  · simp [uriAuthority_of_colon hcolon, h, hport]
  · simp [uriAuthority_of_no_colon hcolon, h, hport]

theorem IsNormal.denotes_uriRest (hnormal : address.IsNormal) (h : address.IsFaithful) :
    Denotes address.scheme address.uriRest address := by
  obtain ⟨scheme, host, port, path, secure⟩ := address
  cases scheme with
  | tcp =>
    obtain ⟨hhost, rfl, rfl⟩ := hnormal
    exact denotesTcp_of_authority (authority_uriAuthority h port) hhost.1
  | unix =>
    obtain ⟨rfl, rfl, rfl, hpath⟩ := hnormal
    exact ⟨by simpa [uriRest] using hpath, by simp [uriRest]⟩
  | stdio | mem =>
    obtain ⟨rfl, rfl, rfl⟩ := hnormal
    simp [Denotes, uriRest]
  | ws =>
    obtain ⟨hhost, hslash, hpath, hsecure⟩ := hnormal
    obtain rfl : secure = false := by simpa using hsecure
    exact denotesWeb_of_authority defaultWsPort false (authority_uriAuthority h port) hhost.1
      (slash_not_mem_uriAuthority hslash port) hpath
  | wss =>
    obtain ⟨hhost, hslash, hpath, hsecure⟩ := hnormal
    obtain rfl : secure = true := by simpa using hsecure
    exact denotesWeb_of_authority defaultWssPort true (authority_uriAuthority h port) hhost.1
      (slash_not_mem_uriAuthority hslash port) hpath

theorem WebParts.unique {authority path authority' path' : List Char}
    (h : WebParts rest authority path) (h' : WebParts rest authority' path') :
    authority = authority' ∧ path = path' := by
  obtain ⟨rfl, rfl⟩ := webParts_iff.1 h
  obtain ⟨rfl, rfl⟩ := webParts_iff.1 h'
  exact ⟨rfl, rfl⟩

theorem IsNormal.not_denotes_uriRest (hnormal : address.IsNormal) (h : ¬ address.IsFaithful)
    (other : Address) : ¬ Denotes address.scheme address.uriRest other := by
  obtain ⟨scheme, host, port, path, secure⟩ := address
  have hweb {scheme : Scheme} {defaultPort : UInt16} {secure : Bool} (hhost : IsHost host)
      (hlost : ¬ IsFaithfulHost host) (hslash : '/' ∉ host.toList) (hpath : IsWebPath path) :
      ¬ DenotesWeb scheme defaultPort secure (uriAuthority host port ++ path.toList) other := by
    rintro ⟨authority, path', host', raw, value, hparts, hauthority, hvalue, -⟩
    have hown : WebParts (uriAuthority host port ++ path.toList) (uriAuthority host port)
        path.toList := ⟨rfl, slash_not_mem_uriAuthority hslash port, .inr hpath.1⟩
    obtain ⟨rfl, -⟩ := hown.unique hparts
    exact portValue_of_not_isFaithfulHost hhost hlost hauthority hvalue
  cases scheme with
  | tcp =>
    rintro ⟨host', raw, value, hauthority, hvalue, -⟩
    exact portValue_of_not_isFaithfulHost hnormal.1 h hauthority hvalue
  | unix | stdio | mem => exact absurd trivial h
  | ws | wss =>
    obtain ⟨hhost, hslash, hpath, -⟩ := hnormal
    exact hweb hhost h hslash hpath

theorem parse_toUri_eq_ok_iff {other : Address} :
    parse address.toUri = .ok other ↔ Denotes address.scheme address.uriRest other := by
  rw [toUri_eq, parse_withScheme_eq_ok_iff]

/-- An address that has been read comes back as it was from its written form exactly if its host is
found again there. If not, the written form is refused as an invalid argument. -/
theorem parse_toUri_of_parse {u : String} (h : parse u = .ok address) :
    (parse address.toUri = .ok address ↔ address.IsFaithful) ∧
      (¬ address.IsFaithful →
        ∃ message, parse address.toUri = .error (.invalidArgument message)) := by
  have hnormal := isNormal_of_parse h
  refine ⟨⟨fun hback => ?_, fun hfaithful => ?_⟩, fun hlost => ?_⟩
  · refine Classical.byContradiction fun hlost => ?_
    exact hnormal.not_denotes_uriRest hlost address (parse_toUri_eq_ok_iff.1 hback)
  · exact parse_toUri_eq_ok_iff.2 (hnormal.denotes_uriRest hfaithful)
  · cases hback : parse address.toUri with
    | ok other =>
      exact absurd (parse_toUri_eq_ok_iff.1 hback) (hnormal.not_denotes_uriRest hlost other)
    | error failure =>
      obtain ⟨hunnamed, -⟩ | ⟨-, message, rfl⟩ := parse_refused hback
      · rw [toUri_eq] at hunnamed
        exact absurd (firstCut_withScheme _ _) (hunnamed.not_scheme _ _)
      · exact ⟨message, rfl⟩

theorem parse_toUri_of_parse_colons :
    parse "tcp://:::7000" = .ok ⟨.tcp, "::", 7000, "", false⟩ ∧
      parse "tcp://[::]:7000" = .ok ⟨.tcp, "::", 7000, "", false⟩ := by
  have h : parse "tcp://:::7000" = .ok ⟨.tcp, "::", 7000, "", false⟩ := rfl
  have hfaithful : IsFaithful ⟨.tcp, "::", 7000, "", false⟩ := .inl ⟨by decide, by decide⟩
  exact ⟨h, (parse_toUri_of_parse h).1.2 hfaithful⟩

/-- Two addresses that are read and whose written forms are refused: an opening bracket that nothing
closes, and a closing one inside of the brackets that the colons ask for. -/
theorem brackets_lost_in_uri :
    parse "tcp://[[]:80" = .ok ⟨.tcp, "[", 80, "", false⟩ ∧
      parse (toUri ⟨.tcp, "[", 80, "", false⟩) =
        .error (.invalidArgument "unterminated IPv6 literal in tcp://[:80") ∧
      parse "ws://:]:/a" = .ok ⟨.ws, ":]", 80, "/a", false⟩ ∧
      parse (toUri ⟨.ws, ":]", 80, "/a", false⟩) =
        .error (.invalidArgument "malformed host:port in ws://[:]]:80/a") :=
  ⟨rfl, rfl, rfl, rfl⟩

/-- A host that its written form gives back. -/
def IsWritableHost (host : String) : Prop := host ≠ "" ∧ IsFaithfulHost host

/-- An address all of whose parts are written, or are what reading puts there. -/
def IsWritable (address : Address) : Prop :=
  match address.scheme with
  | .tcp => IsWritableHost address.host ∧ address.path = "" ∧ address.secure = false
  | .unix => address.host = "" ∧ address.port = 0 ∧ address.secure = false ∧ address.path ≠ ""
  | .stdio | .mem => address.host = "" ∧ address.port = 0 ∧ address.secure = false
  | .ws | .wss => IsWritableHost address.host ∧ '/' ∉ address.host.toList ∧
    IsWebPath address.path ∧ (address.secure = true ↔ address.scheme = .wss)

/-- A faithful host has at most one of the brackets that would make it a literal. -/
theorem isWritableHost_iff : IsWritableHost host ↔ IsHost host ∧ IsFaithfulHost host := by
  constructor
  · rintro ⟨hne, hfaithful⟩
    refine ⟨⟨hne, ?_⟩, hfaithful⟩
    rintro ⟨⟨tail, hopening⟩, hclosing⟩
    obtain ⟨-, hno⟩ | ⟨-, hno⟩ := hfaithful
    · exact hno hclosing
    · exact hno tail hopening
  · rintro ⟨hhost, hfaithful⟩
    exact ⟨hhost.1, hfaithful⟩

theorem isWritable_iff : address.IsWritable ↔ address.IsNormal ∧ address.IsFaithful := by
  obtain ⟨scheme, host, port, path, secure⟩ := address
  cases scheme with
  | unix | stdio | mem => exact (and_iff_left trivial).symm
  | tcp | ws | wss =>
    unfold IsWritable
    rw [isWritableHost_iff]
    exact and_right_comm

/-- An address, however it has come about, is what its written form is read as exactly if it is
writable: parts that are not written must be empty, and the host must be found again. -/
theorem parse_toUri_eq_self_iff (address : Address) :
    parse address.toUri = .ok address ↔ address.IsWritable := by
  rw [isWritable_iff]
  constructor
  · intro hback
    have hnormal := isNormal_of_parse hback
    refine ⟨hnormal, Classical.byContradiction fun hlost => ?_⟩
    exact hnormal.not_denotes_uriRest hlost address (parse_toUri_eq_ok_iff.1 hback)
  · rintro ⟨hnormal, hfaithful⟩
    exact parse_toUri_eq_ok_iff.2 (hnormal.denotes_uriRest hfaithful)

end DuplexRpc.Address
