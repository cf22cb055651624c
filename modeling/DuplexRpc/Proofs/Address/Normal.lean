import DuplexRpc.Proofs.Address.Reading

/-!
Which addresses reading gives: the normal ones. Defaults leave no host and no web path empty, and a
host never has both of the brackets that would make it a literal; every address of that form is
given for some text.
-/
namespace DuplexRpc.Address

open Text

variable {host raw a rest path : List Char} {address : Address} {scheme : Scheme} {port : UInt16}

/-- A host with an opening bracket at its beginning and a closing one anywhere cannot be given. -/
def IsHost (host : String) : Prop :=
  host ≠ "" ∧ ¬((∃ tail, host.toList = '[' :: tail) ∧ ']' ∈ host.toList)

def IsWebPath (path : String) : Prop := (∃ tail, path.toList = '/' :: tail) ∧ path ≠ "/"

def IsNormal (address : Address) : Prop :=
  match address.scheme with
  | .tcp => IsHost address.host ∧ address.path = "" ∧ address.secure = false
  | .unix => address.host = "" ∧ address.port = 0 ∧ address.secure = false ∧ address.path ≠ ""
  | .stdio | .mem => address.host = "" ∧ address.port = 0 ∧ address.secure = false
  | .ws | .wss => IsHost address.host ∧ '/' ∉ address.host.toList ∧ IsWebPath address.path ∧
    (address.secure = true ↔ address.scheme = .wss)

theorem Authority.isHost {raw : Option (List Char)} (h : Authority a host raw) :
    IsHost (hostText host) := by
  unfold hostText
  split
  · exact ⟨by decide, fun h => absurd h.2 (by decide)⟩
  next hne =>
    refine ⟨fun heq => hne (List.isEmpty_iff.2 (String.ofList_eq_empty_iff.1 heq)), ?_⟩
    rw [String.toList_ofList]
    rintro ⟨⟨tail, htail⟩, hclosing⟩
    cases h with
    | literal h | literalPort h => exact h hclosing
    | bare _ hbare | barePort _ hbare => exact hbare tail htail

theorem Authority.mem_of_mem {raw : Option (List Char)} (h : Authority a host raw) {c : Char}
    (hc : c ∈ host) : c ∈ a := by
  cases h <;> simp [hc]

theorem isWebPath_readPath (h : path = [] ∨ ∃ tail, path = '/' :: tail) :
    IsWebPath (readPath path) := by
  unfold readPath
  split
  · exact ⟨⟨_, rfl⟩, by decide⟩
  next hother =>
    obtain ⟨hne, hroot⟩ := not_or.1 hother
    obtain rfl | ⟨tail, rfl⟩ := h
    · exact absurd rfl hne
    · exact ⟨⟨tail, String.toList_ofList⟩, fun heq => hroot (String.ofList_inj.1 heq)⟩

theorem Denotes.isNormal (h : Denotes scheme rest address) :
    address.scheme = scheme ∧ address.IsNormal := by
  have hweb {scheme : Scheme} {defaultPort : UInt16} {secure : Bool}
      (h : DenotesWeb scheme defaultPort secure rest address) :
      IsHost address.host ∧ '/' ∉ address.host.toList ∧ IsWebPath address.path ∧
        address.scheme = scheme ∧ address.secure = secure := by
    obtain ⟨authority, path, host, raw, port, ⟨rfl, hslash, hpath⟩, hauthority, -, rfl⟩ := h
    refine ⟨hauthority.isHost, fun hmem => ?_, isWebPath_readPath hpath, rfl, rfl⟩
    dsimp only [hostText] at hmem
    split at hmem
    · exact absurd hmem (by decide)
    · rw [String.toList_ofList] at hmem
      exact hslash (hauthority.mem_of_mem hmem)
  cases scheme with
  | tcp =>
    obtain ⟨host, raw, port, hauthority, -, rfl⟩ := h
    exact ⟨rfl, hauthority.isHost, rfl, rfl⟩
  | unix =>
    obtain ⟨hrest, rfl⟩ := h
    exact ⟨rfl, rfl, rfl, rfl, fun heq => hrest (String.ofList_eq_empty_iff.1 heq)⟩
  | stdio | mem =>
    obtain rfl := h
    exact ⟨rfl, rfl, rfl, rfl⟩
  | ws | wss =>
    obtain ⟨hhost, hslash, hpath, hscheme, hsecure⟩ := hweb h
    refine ⟨hscheme, ?_⟩
    unfold IsNormal
    rw [hscheme]
    simp [hhost, hslash, hpath, hsecure]

theorem isNormal_of_parse {u : String} (h : parse u = .ok address) : address.IsNormal := by
  obtain ⟨scheme, rest, -, hdenotes⟩ := read_eq_ok_iff.1 (parse_eq_ok_iff.1 h)
  exact hdenotes.isNormal.2

theorem toList_portText (port : UInt16) : (portText port).toList = Nat.toDigits 10 port.toNat := by
  show (Nat.repr port.toNat).toList = _
  rw [Nat.repr_eq_ofList_toDigits, String.toList_ofList]

theorem isDigit_of_mem_portText {c : Char} (h : c ∈ (portText port).toList) : c.isDigit = true := by
  rw [toList_portText] at h
  exact Nat.isDigit_of_mem_toDigits (by decide) (by decide) h

theorem not_mem_portText {c : Char} (h : c.isDigit = false) (port : UInt16) :
    c ∉ (portText port).toList := by
  intro hmem
  simp [isDigit_of_mem_portText hmem] at h

theorem portValue_portText (defaultPort port : UInt16) :
    portValue defaultPort (some (portText port).toList) = some port := by
  have hne : (portText port).toList ≠ [] := by
    rw [toList_portText]
    exact Nat.toDigits_ne_nil
  rw [portValue_of_ne_nil hne, port?_eq_some_iff]
  refine ⟨_, .inl rfl, hne, fun c => isDigit_of_mem_portText, ?_⟩
  rw [toList_portText]
  exact Nat.ofDigitChars_ten_toDigits

theorem hostText_toList {host : String} (h : host ≠ "") : hostText host.toList = host := by
  have hne : host.toList.isEmpty = false := by simpa using h
  rw [hostText, hne]
  exact String.ofList_toList

theorem readPath_toList {path : String} (h : IsWebPath path) : readPath path.toList = path := by
  obtain ⟨⟨tail, htail⟩, hroot⟩ := h
  have hother : ¬(path.toList = [] ∨ path.toList = ['/']) := by
    rw [not_or]
    exact ⟨by simp [htail], fun heq => hroot (String.toList_inj.1 heq)⟩
  rw [readPath, if_neg hother, String.ofList_toList]

/-- The text of a scheme, the mark, and what follows them. -/
def withScheme (scheme : Scheme) (rest : List Char) : String :=
  String.ofList (scheme.text.toList ++ schemeMark.toList ++ rest)

theorem firstCut_withScheme (scheme : Scheme) (rest : List Char) :
    FirstCut schemeMark.toList (withScheme scheme rest).toList scheme.text.toList rest := by
  have hcolon : ':' ∉ scheme.text.toList := by cases scheme <;> decide
  rw [withScheme, String.toList_ofList]
  exact .of_not_mem hcolon rest

theorem parse_withScheme_eq_ok_iff :
    parse (withScheme scheme rest) = .ok address ↔ Denotes scheme rest address :=
  parse_eq_ok_iff.trans ((read_of_scheme (firstCut_withScheme scheme rest)).1 address)

/-- A text that has a host, which stands in brackets if it begins with one, and a port. -/
def authorityText (host : String) (port : UInt16) : List Char :=
  (if host.toList.head? = some '[' then '[' :: (host.toList ++ [']']) else host.toList) ++
    ':' :: (portText port).toList

theorem authority_authorityText {host : String} (h : IsHost host) (port : UInt16) :
    Authority (authorityText host port) host.toList (some (portText port).toList) := by
  unfold authorityText
  split
  next hopening =>
    have hclosing : ']' ∉ host.toList := fun hmem =>
      h.2 ⟨List.head?_eq_some_iff.1 hopening, hmem⟩
    simpa using Authority.literalPort hclosing
  next hbare =>
    exact .barePort (not_mem_portText rfl port) fun literal heq => hbare (by rw [heq]; rfl)

theorem not_mem_authorityText {host : String} {c : Char} (h : c ∉ host.toList)
    (hdigit : c.isDigit = false) (hmark : c ∉ ['[', ']', ':']) (port : UInt16) :
    c ∉ authorityText host port := by
  have hport := not_mem_portText hdigit port
  simp only [List.mem_cons, List.not_mem_nil, or_false, not_or] at hmark
  unfold authorityText
  split <;> simp [h, hport, hmark]

theorem denotesTcp_of_authority {host : String}
    (h : Authority a host.toList (some (portText port).toList)) (hhost : host ≠ "") :
    Denotes .tcp a ⟨.tcp, host, port, "", false⟩ :=
  ⟨_, _, port, h, portValue_portText _ port, by rw [hostText_toList hhost]⟩

theorem denotesWeb_of_authority {host path : String} (defaultPort : UInt16) (secure : Bool)
    (h : Authority a host.toList (some (portText port).toList)) (hhost : host ≠ "")
    (hslash : '/' ∉ a) (hpath : IsWebPath path) :
    DenotesWeb scheme defaultPort secure (a ++ path.toList) ⟨scheme, host, port, path, secure⟩ :=
  ⟨a, path.toList, _, _, port, ⟨rfl, hslash, .inr hpath.1⟩, h, portValue_portText _ port,
    by rw [hostText_toList hhost, readPath_toList hpath]⟩

theorem IsNormal.exists_denotes (h : address.IsNormal) :
    ∃ rest, Denotes address.scheme rest address := by
  obtain ⟨scheme, host, port, path, secure⟩ := address
  have hweb {scheme : Scheme} (defaultPort : UInt16) (secure : Bool) (hhost : IsHost host)
      (hslash : '/' ∉ host.toList) (hpath : IsWebPath path) :
      ∃ rest, DenotesWeb scheme defaultPort secure rest ⟨scheme, host, port, path, secure⟩ :=
    ⟨_, denotesWeb_of_authority defaultPort secure (authority_authorityText hhost port) hhost.1
      (not_mem_authorityText hslash rfl (by decide) port) hpath⟩
  cases scheme with
  | tcp =>
    obtain ⟨hhost, rfl, rfl⟩ := h
    exact ⟨_, denotesTcp_of_authority (authority_authorityText hhost port) hhost.1⟩
  | unix =>
    obtain ⟨rfl, rfl, rfl, hpath⟩ := h
    exact ⟨path.toList, by simpa using hpath, by rw [String.ofList_toList]⟩
  | stdio | mem =>
    obtain ⟨rfl, rfl, rfl⟩ := h
    exact ⟨path.toList, by rw [Denotes, String.ofList_toList]⟩
  | ws =>
    obtain ⟨hhost, hslash, hpath, hsecure⟩ := h
    obtain rfl : secure = false := by simpa using hsecure
    exact hweb defaultWsPort false hhost hslash hpath
  | wss =>
    obtain ⟨hhost, hslash, hpath, hsecure⟩ := h
    obtain rfl : secure = true := by simpa using hsecure
    exact hweb defaultWssPort true hhost hslash hpath

/-- Reading gives exactly the normal addresses. -/
theorem exists_parse_eq_iff_isNormal (address : Address) :
    (∃ u, parse u = .ok address) ↔ address.IsNormal := by
  constructor
  · rintro ⟨u, h⟩
    exact isNormal_of_parse h
  · intro h
    obtain ⟨rest, hdenotes⟩ := h.exists_denotes
    exact ⟨withScheme address.scheme rest, parse_withScheme_eq_ok_iff.2 hdenotes⟩

end DuplexRpc.Address
