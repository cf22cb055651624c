import DuplexRpc.Proofs.Envelope.Rereading

/-!
Strict and lenient reading. The fields that a strict reading finds in an object are the members of
its value, as no field may be repeated. So what a strict reading accepts, the lenient one reads the
same, except where it looks at other members first or finds an error that is no object.
-/
namespace DuplexRpc

open Json

namespace Members

/-- Of several values for one key the last counts. -/
theorem get?_ofList (members : List (String × Json)) (key : String) :
    (ofList members).get? key = ((members.filter (·.1 == key)).getLast?).map Prod.snd := by
  induction members using List.reverseRecOn with
  | nil => rfl
  | append_singleton members p ih =>
    obtain ⟨k, value⟩ := p
    rw [get?_ofList_append, ih, List.filter_append]
    by_cases hkey : k = key <;> simp [hkey]

end Members

namespace Document

variable {members : List (String × Document)} {name : String} {field : Option Document}

theorem get?_of_field? (h : field? members name = some field) :
    (Members.ofList (members.map fun p => (p.1, p.2.value))).get? name = field.map value := by
  have hfilter : (members.map fun p => (p.1, p.2.value)).filter (·.1 == name) =
      (members.filter (·.1 == name)).map fun p => (p.1, p.2.value) := List.filter_map ..
  rw [Members.get?_ofList, hfilter]
  unfold field? at h
  split at h
  next heq =>
    cases h
    rw [heq]
    rfl
  next heq =>
    cases h
    rw [heq]
    rfl
  next => cases h

theorem memberValues_of_mapM {members : List (Option String × Document)}
    {named : List (String × Document)} (h : members.mapM namedMember? = some named) :
    memberValues members = named.map fun p => (p.1, p.2.value) := by
  induction members generalizing named with
  | nil =>
    cases h
    rfl
  | cons p members ih =>
    obtain ⟨key, d⟩ := p
    rw [List.mapM_cons] at h
    obtain ⟨first, hfirst, h⟩ := Option.bind_eq_some_iff.1 h
    obtain ⟨rest, hrest, h⟩ := Option.bind_eq_some_iff.1 h
    cases h
    cases key with
    | none => cases hfirst
    | some key =>
      cases hfirst
      rw [memberValues, ih hrest]
      rfl

/-- The fields of a record that is an object are the members of its value. -/
theorem get?_of_record? {members : List (Option String × Document)} {names : List String}
    {fields : List (Option Document)} (h : (object members).record? names = some fields) :
    names.map (Members.ofList (memberValues members)).get? = fields.map (·.map value) := by
  obtain ⟨named, hnamed, hfields⟩ := Option.bind_eq_some_iff.1 h
  rw [memberValues_of_mapM hnamed]
  clear h hnamed
  induction names generalizing fields with
  | nil =>
    cases hfields
    rfl
  | cons name names ih =>
    rw [List.mapM_cons] at hfields
    obtain ⟨first, hfirst, hfields⟩ := Option.bind_eq_some_iff.1 hfields
    obtain ⟨rest, hrest, hfields⟩ := Option.bind_eq_some_iff.1 hfields
    cases hfields
    rw [List.map_cons, List.map_cons, ih hrest, get?_of_field? hfirst]

variable {d : Document} {level : Nat}

theorem value_of_text? {s : String} (h : d.text? = some s) : d.value = .string s := by
  cases d with
  | string text =>
    cases h
    rfl
  | _ => cases h

theorem value_of_json? {j : Json} (h : d.json? level = some j) :
    d.isSound level = true ∧ j = d.value := by
  unfold json? at h
  split at h
  next hsound =>
    cases h
    exact ⟨hsound, rfl⟩
  next => cases h

theorem isNull_value (h : d.isSound level = true) : d.value.isNull = d.isNull := by
  cases d with
  | number n => cases n <;> first | rfl | cases h
  | string s => cases s <;> first | rfl | cases h
  | _ => rfl

/-- A field that may be absent or null is read if it is neither. -/
theorem optional?_cases {α : Type} {readField : Document → Option α} {found : Option α}
    (h : optional? readField field = some found) :
    (found = none ∧ (field.map value).filter (!·.isNull) = none) ∨
      ∃ d a, field = some d ∧ d.isNull = false ∧ readField d = some a ∧ found = some a := by
  cases field with
  | none =>
    cases h
    exact .inl ⟨rfl, rfl⟩
  | some d =>
    rw [optional?] at h
    split at h
    next hnull =>
      cases h
      refine .inl ⟨rfl, ?_⟩
      cases d <;> first | rfl | cases hnull
    next hnull =>
      obtain ⟨a, ha, h⟩ := Option.map_eq_some_iff.1 h
      cases h
      exact .inr ⟨d, a, rfl, Bool.not_eq_true _ ▸ hnull, ha, rfl⟩

theorem optional?_json? {found : Option Json}
    (h : optional? (json? level) field = some found) :
    found = (field.map value).filter (!·.isNull) := by
  obtain ⟨rfl, hnone⟩ | ⟨d, j, rfl, hnull, hj, rfl⟩ := optional?_cases h
  · exact hnone.symm
  · obtain ⟨hsound, rfl⟩ := value_of_json? hj
    exact (Option.filter_some_pos (by simp [isNull_value hsound, hnull])).symm

theorem value_of_integer? {n : Int} (h : d.integer? = some n) : d.value.integer? = some n := by
  unfold integer? at h
  split at h
  · cases h
    rfl
  · cases h

theorem eq_object_of_value {m : Members none} (h : d.value = .object m) :
    ∃ members, d = .object members ∧ m = .ofList (memberValues members) := by
  cases d with
  | object members =>
    cases h
    exact ⟨members, rfl, rfl⟩
  | number n => cases n <;> cases h
  | string s => cases s <;> cases h
  | _ => cases h

/-- The lenient reading of an error object that a strict reading accepts. -/
theorem ofJson?_of_errorObject? {m : Members none} {e : ErrorObject} (hvalue : d.value = .object m)
    (h : d.errorObject? level = some e) : ErrorObject.ofJson? d.value = some e := by
  obtain ⟨members, rfl, rfl⟩ := eq_object_of_value hvalue
  obtain ⟨fields, hfields, h⟩ := Option.bind_eq_some_iff.1 h
  split at h
  next code message data =>
    have hmembers := get?_of_record? hfields
    simp only [List.map_cons, List.map_nil, List.cons.injEq, and_true] at hmembers
    obtain ⟨hcode, hmessage, hdata⟩ := hmembers
    obtain ⟨n, hn, h⟩ := Option.bind_eq_some_iff.1 h
    obtain ⟨code', hcode', h⟩ := Option.bind_eq_some_iff.1 h
    obtain ⟨text, htext, h⟩ := Option.bind_eq_some_iff.1 h
    obtain ⟨found, hfound, h⟩ := Option.bind_eq_some_iff.1 h
    cases h
    rw [hvalue]
    unfold ErrorObject.ofJson?
    simp [hcode, hmessage, hdata, value_of_integer? hn, hcode', value_of_text? htext,
      optional?_json? hfound, Json.string?]
  next => cases h

theorem present?_of_optional? {m : Members none} {found : Option Json}
    (hmember : m.get? name = field.map value) (h : optional? (json? level) field = some found) :
    Envelope.present? m name = found := by
  rw [Envelope.present?, hmember, optional?_json? h]

theorem isNull_of_errorObject? {e : ErrorObject} (h : d.errorObject? level = some e) :
    d.value.isNull = false := by
  cases d with
  | array | object => rfl
  | _ => cases h

theorem ofJson?_of_optional? {m : Members none} {found : Option ErrorObject}
    (hmember : m.get? name = field.map value)
    (h : optional? (errorObject? level) field = some found)
    (hobject : ∀ e, Envelope.present? m name = some e → ∃ members, e = .object members) :
    (Envelope.present? m name).bind ErrorObject.ofJson? = found := by
  obtain ⟨rfl, hnone⟩ | ⟨d, e, rfl, -, he, rfl⟩ := optional?_cases h
  · rw [Envelope.present?, hmember, hnone, Option.bind_none]
  · have hpresent : Envelope.present? m name = some d.value := by
      rw [Envelope.present?, hmember]
      exact Option.filter_some_pos (by simp [isNull_of_errorObject? he])
    obtain ⟨members, hvalue⟩ := hobject _ hpresent
    rw [hpresent]
    exact ofJson?_of_errorObject? hvalue he

/-- The request that the lenient reading makes of the members. -/
theorem requestOf_of_request? {m : Members none} {r : Request} (hvalue : d.value = .object m)
    (h : d.request? = some r) : Envelope.present? m "method" = some (.string r.method) ∧
      Envelope.requestOf m (.string r.method) = { r with params := r.params.asObject } := by
  obtain ⟨members, rfl, rfl⟩ := eq_object_of_value hvalue
  obtain ⟨fields, hfields, h⟩ := Option.bind_eq_some_iff.1 h
  split at h
  next version id method params =>
    have hmembers := get?_of_record? hfields
    simp only [List.map_cons, List.map_nil, List.cons.injEq, and_true] at hmembers
    obtain ⟨hversion, hid, hmethod, hparams⟩ := hmembers
    obtain ⟨version', hversion', h⟩ := Option.bind_eq_some_iff.1 h
    obtain ⟨id', hid', h⟩ := Option.bind_eq_some_iff.1 h
    obtain ⟨method', hmethod', h⟩ := Option.bind_eq_some_iff.1 h
    obtain ⟨params', hparams', h⟩ := Option.bind_eq_some_iff.1 h
    cases h
    have hobject : ((params.map value).getD .null) = params' := by
      cases params with
      | none => exact Option.some.inj hparams'
      | some d => exact (value_of_json? hparams').2.symm
    refine ⟨(Envelope.present?_eq_some_iff (by simp)).2 ?_, ?_⟩
    · rw [hmethod, Option.map_some, value_of_text? hmethod']
    · simp [Envelope.requestOf, Envelope.textOrEmpty, hversion, value_of_text? hversion',
        present?_of_optional? hid hid', hparams, hobject, Json.string?]
  next => cases h

/-- The response that the lenient reading makes of the members, if the error is an object. -/
theorem responseOf_of_response? {m : Members none} {r : Response} (hvalue : d.value = .object m)
    (h : d.response? = some r) (herror : ∀ e, Envelope.present? m "error" = some e →
      ∃ members, e = .object members) : Envelope.responseOf m = r := by
  obtain ⟨members, rfl, rfl⟩ := eq_object_of_value hvalue
  obtain ⟨fields, hfields, h⟩ := Option.bind_eq_some_iff.1 h
  split at h
  next version id result error =>
    have hmembers := get?_of_record? hfields
    simp only [List.map_cons, List.map_nil, List.cons.injEq, and_true] at hmembers
    obtain ⟨hversion, hid, hresult, hread⟩ := hmembers
    obtain ⟨version', hversion', h⟩ := Option.bind_eq_some_iff.1 h
    obtain ⟨id', hid', h⟩ := Option.bind_eq_some_iff.1 h
    obtain ⟨result', hresult', h⟩ := Option.bind_eq_some_iff.1 h
    obtain ⟨error', herror', h⟩ := Option.bind_eq_some_iff.1 h
    cases h
    have hfailed := ofJson?_of_optional? hread herror' herror
    simp [Envelope.responseOf, Envelope.textOrEmpty, hversion, value_of_text? hversion', hid,
      (value_of_json? hid').2, present?_of_optional? hresult hresult', hfailed, Json.string?]
  next => cases h

end Document

namespace Envelope

/-- What is an object and a request to the strict reading is that request to the lenient one, with
an object for its params. What is an object and a response to the strict reading is that response to
the lenient one, if it has no method, a result or an error, and no error but an object. -/
theorem parse_of_decode {text : String} {m : Members none}
    (hvalue : Json.parse? text = some (.object m)) :
    (∀ r, Request.decode? text = some r →
      parse text = some (.request { r with params := r.params.asObject })) ∧
    ∀ r, Response.decode? text = some r →
      (m.get? "method" = none ∨ m.get? "method" = some .null) →
      (r.result.isSome ∨ r.error.isSome) →
      (m.get? "error" = none ∨ m.get? "error" = some .null ∨
        ∃ members, m.get? "error" = some (.object members)) →
      parse text = some (.response r) := by
  obtain ⟨d, hread, -, hd⟩ := exists_document hvalue
  constructor
  · intro r h
    rw [Request.decode?, hread, Option.bind_some] at h
    obtain ⟨hmethod, hrequest⟩ := Document.requestOf_of_request? hd h
    exact parse_eq_request_iff.2 ⟨m, _, hvalue, hmethod, hrequest.symm⟩
  · intro r h hmethod hbody herror
    rw [Response.decode?, hread, Option.bind_some] at h
    have hobject : ∀ e, present? m "error" = some e → ∃ members, e = .object members := by
      intro e he
      have hmember := (Option.filter_eq_some_iff.1 he).1
      rcases herror with hnone | hnull | ⟨members, hmembers⟩
      · cases hnone.symm.trans hmember
      · rw [(present?_eq_none_iff m "error").2 (.inr hnull)] at he
        cases he
      · exact ⟨members, Option.some.inj (hmember.symm.trans hmembers)⟩
    have hr := Document.responseOf_of_response? hd h hobject
    refine parse_eq_response_iff.2 ⟨m, hvalue, (present?_eq_none_iff m _).2 hmethod, ?_, hr.symm⟩
    rw [← hr] at hbody
    refine hbody.imp_right fun hsome => ?_
    obtain ⟨e, he⟩ := Option.isSome_iff_exists.1 hsome
    obtain ⟨error, herror, -⟩ := Option.bind_eq_some_iff.1 he
    exact Option.isSome_iff_exists.2 ⟨error, herror⟩

/-- A request with a null id and with params that are no object, and a failed response with data. -/
theorem parse_of_decode_call_and_failure :
    let call := "\x7b\"jsonrpc\":\"1.0\",\"method\":\"Echo/Ping\",\"id\":null,\"params\":[]\x7d"
    let failed := "\x7b\"jsonrpc\":\"2.0\",\"id\":\"c1\",\"error\":" ++
      "\x7b\"code\":7,\"message\":\"no\",\"data\":[true]\x7d\x7d"
    let error : ErrorObject := ⟨7, "no", some (.array [.bool true])⟩
    Request.decode? call = some ⟨"1.0", none, "Echo/Ping", .array []⟩ ∧
      parse call = some (.request ⟨"1.0", none, "Echo/Ping", .empty⟩) ∧
    Response.decode? failed = some ⟨"2.0", .string "c1", none, some error⟩ ∧
      parse failed = some (.response ⟨"2.0", .string "c1", none, some error⟩) := by
  intro call failed error
  have hcall : Request.decode? call = some ⟨"1.0", none, "Echo/Ping", .array []⟩ := by
    decide +kernel
  have hfailed : Response.decode? failed = some ⟨"2.0", .string "c1", none, some error⟩ := by
    decide +kernel
  have hcallValue : Json.parse? call = some (.object (.ofList [("jsonrpc", .string "1.0"),
      ("method", .string "Echo/Ping"), ("id", .null), ("params", .array [])])) := by
    decide +kernel
  have hfailedValue : Json.parse? failed = some (.object (.ofList [("jsonrpc", .string "2.0"),
      ("id", .string "c1"), ("error", .object (.ofList [("code", .number (.ofInt32 7)),
        ("message", .string "no"), ("data", .array [.bool true])]))])) := by
    decide +kernel
  refine ⟨hcall, (parse_of_decode hcallValue).1 _ hcall, hfailed, ?_⟩
  exact (parse_of_decode hfailedValue).2 _ hfailed (.inl (by decide +kernel)) (.inr rfl)
    (.inr (.inr ⟨_, rfl⟩))

end Envelope

end DuplexRpc
