import DuplexRpc.Proofs.Envelope.Verdicts
import DuplexRpc.Proofs.Json.Records

/-!
Reading back what was sent. An envelope is written as a record of its fields and classified by the
members that are found in it. A null member counts as absent, so an optional field that holds null
is lost on the way; of the envelopes that are ever made, only failures can have one, their data.
-/
namespace DuplexRpc

open Json

variable {level : Nat}

namespace ErrorObject

/-- How deep arrays and objects are nested. -/
def depth (e : ErrorObject) : Nat := e.data.elim 0 Json.depth + 1

/-- The doubles that its data holds. -/
def doubles (e : ErrorObject) : List FiniteBinary64 := e.data.elim [] Json.doubles

def entries (e : ErrorObject) : List (String × Option Document) :=
  [("code", some (.number (some (.ofInt32 e.code)))), ("message", some (.string (some e.message))),
    ("data", e.data.map Json.document)]

/-- The error object that is read: null data counts as absent. -/
def dropNull (e : ErrorObject) : ErrorObject := { e with data := e.data.filter (!·.isNull) }

theorem dropNull_of_null {e : ErrorObject} (h : e.data = some .null) :
    e.dropNull = { e with data := none } := by
  rw [dropNull, h]
  rfl

theorem dropNull_eq_self_iff (e : ErrorObject) : e.dropNull = e ↔ e.data ≠ some .null := by
  obtain ⟨code, message, data⟩ := e
  cases data with
  | none => simp [dropNull]
  | some j => cases j <;> simp [dropNull, isNull]

theorem reads_render {e : ErrorObject} (hdepth : e.depth ≤ level)
    (hdoubles : ∀ x ∈ e.doubles, ReadsBack x) :
    Reads level e.render (recordDocument e.entries) := by
  obtain ⟨level, rfl, hdata⟩ := exists_level hdepth
  have hcode : ∀ x, Number.ofInt32 e.code = .double x → ReadsBack x := nofun
  exact reads_record (.cons (.some (reads_number hcode)) (.cons (.some (reads_string e.message))
    (.cons (.of_json hdata hdoubles) .nil)))

theorem code32?_toInt (code : Int32) : code32? code.toInt = some code := by
  have hle := code.le_toInt
  have hlt := code.toInt_lt
  rw [code32?, if_pos (by omega), Int32.ofInt_toInt]

theorem ofJson?_value (e : ErrorObject) :
    ofJson? (recordDocument e.entries).value = some e.dropNull := by
  have hmember (key : String) := get?_recordMembers e.entries key (by simp [entries])
  have hcode : (recordMembers e.entries).get? "code" = some (.number (.ofInt32 e.code)) :=
    (hmember "code").trans rfl
  have hmessage : (recordMembers e.entries).get? "message" = some (.string e.message) :=
    (hmember "message").trans rfl
  have hdata : (recordMembers e.entries).get? "data" = e.data :=
    (hmember "data").trans (map_value_map_document e.data)
  rw [value_recordDocument, ofJson?, hcode, hmessage, hdata]
  simp [Number.ofInt32, integer?, string?, code32?_toInt, dropNull]

theorem bind_ofJson?_value (error : Option ErrorObject) :
    (error.map fun e => (recordDocument e.entries).value).bind ofJson? = error.map dropNull := by
  cases error with
  | none => rfl
  | some e => exact ofJson?_value e

end ErrorObject

namespace Request

/-- How deep arrays and objects are nested. -/
def depth (r : Request) : Nat := max (r.id.elim 0 Json.depth) r.params.depth + 1

def doubles (r : Request) : List FiniteBinary64 := r.id.elim [] Json.doubles ++ r.params.doubles

def entries (r : Request) : List (String × Option Document) :=
  [("jsonrpc", some (.string (some r.version))), ("id", r.id.map Json.document),
    ("method", some (.string (some r.method))), ("params", some r.params.document)]

theorem reads_render {r : Request} (hdepth : r.depth ≤ level)
    (hdoubles : ∀ x ∈ r.doubles, ReadsBack x) :
    Reads level r.render (recordDocument r.entries) := by
  obtain ⟨level, rfl, hfields⟩ := exists_level hdepth
  obtain ⟨hid, hparams⟩ := Nat.max_le.1 hfields
  obtain ⟨hidDoubles, hparamsDoubles⟩ := List.forall_mem_append.1 hdoubles
  exact reads_record (.cons (.some (reads_string r.version))
    (.cons (.of_json hid hidDoubles)
      (.cons (.some (reads_string r.method))
        (.cons (.some (Json.reads_render r.params hparams hparamsDoubles)) .nil))))

/-- A sent request is read as it is, but for a null id and for params that are no object. -/
theorem parse_wire {r : Request} (hdepth : r.depth ≤ maxDepth)
    (hdoubles : ∀ x ∈ r.doubles, ReadsBack x) :
    Envelope.parse r.wire = some (.request
      { r with id := r.id.filter (!·.isNull), params := r.params.asObject }) := by
  have hmember (key : String) := get?_recordMembers r.entries key (by simp [entries])
  have hversion : (recordMembers r.entries).get? "jsonrpc" = some (.string r.version) :=
    (hmember "jsonrpc").trans rfl
  have hid : (recordMembers r.entries).get? "id" = r.id :=
    (hmember "id").trans (map_value_map_document r.id)
  have hmethod : (recordMembers r.entries).get? "method" = some (.string r.method) :=
    (hmember "method").trans rfl
  have hparams : (recordMembers r.entries).get? "params" = some r.params :=
    (hmember "params").trans (congrArg some (value_document r.params))
  have hvalue : parse? r.wire = some (.object (recordMembers r.entries)) :=
    parse?_record (reads_render hdepth hdoubles)
  refine Envelope.parse_eq_request_iff.2 ⟨_, .string r.method, hvalue,
    (Envelope.present?_eq_some_iff (by simp)).2 hmethod, ?_⟩
  simp [Envelope.requestOf, Envelope.present?, Envelope.textOrEmpty, hversion, hid, hparams, string?]

end Request

namespace Response

/-- How deep arrays and objects are nested. -/
def depth (r : Response) : Nat :=
  max r.id.depth (max (r.result.elim 0 Json.depth) (r.error.elim 0 ErrorObject.depth)) + 1

def doubles (r : Response) : List FiniteBinary64 :=
  r.id.doubles ++ (r.result.elim [] Json.doubles ++ r.error.elim [] ErrorObject.doubles)

def entries (r : Response) : List (String × Option Document) :=
  [("jsonrpc", some (.string (some r.version))), ("id", some r.id.document),
    ("result", r.result.map Json.document),
    ("error", r.error.map fun e => recordDocument e.entries)]

theorem reads_render {r : Response} (hdepth : r.depth ≤ level)
    (hdoubles : ∀ x ∈ r.doubles, ReadsBack x) :
    Reads level r.render (recordDocument r.entries) := by
  obtain ⟨level, rfl, hfields⟩ := exists_level hdepth
  obtain ⟨hid, hrest⟩ := Nat.max_le.1 hfields
  obtain ⟨hresult, herror⟩ := Nat.max_le.1 hrest
  obtain ⟨hidDoubles, hrestDoubles⟩ := List.forall_mem_append.1 hdoubles
  obtain ⟨hresultDoubles, herrorDoubles⟩ := List.forall_mem_append.1 hrestDoubles
  have hreads : ∀ e ∈ r.error, Reads level e.render (recordDocument e.entries) := by
    intro e he
    rw [Option.mem_def.1 he] at herror herrorDoubles
    exact ErrorObject.reads_render herror herrorDoubles
  exact reads_record (.cons (.some (reads_string r.version))
    (.cons (.some (Json.reads_render r.id hid hidDoubles))
      (.cons (.of_json hresult hresultDoubles) (.cons (.map hreads) .nil))))

/-- An error object is not null, so an error that is sent is found. -/
theorem present?_error (r : Response) : Envelope.present? (recordMembers r.entries) "error" =
    r.error.map fun e => (recordDocument e.entries).value := by
  have hmember := get?_recordMembers r.entries "error" (by simp [entries])
  have herror : (recordMembers r.entries).get? "error" =
      r.error.map fun e => (recordDocument e.entries).value :=
    hmember.trans (Option.map_map ..)
  rw [Envelope.present?, herror]
  cases r.error with
  | none => rfl
  | some e => simp [value_recordDocument, isNull]

/-- A sent response with a result that is not null, or with an error, is read as it is, but for
null data in the error. -/
theorem parse_wire {r : Response} (hdepth : r.depth ≤ maxDepth)
    (hdoubles : ∀ x ∈ r.doubles, ReadsBack x)
    (hbody : (r.result.filter (!·.isNull)).isSome ∨ r.error.isSome) :
    Envelope.parse r.wire = some (.response
      { r with
        result := r.result.filter (!·.isNull)
        error := r.error.map ErrorObject.dropNull }) := by
  have hmember (key : String) := get?_recordMembers r.entries key (by simp [entries])
  have hversion : (recordMembers r.entries).get? "jsonrpc" = some (.string r.version) :=
    (hmember "jsonrpc").trans rfl
  have hid : (recordMembers r.entries).get? "id" = some r.id :=
    (hmember "id").trans (congrArg some (value_document r.id))
  have hmethod : (recordMembers r.entries).get? "method" = none := (hmember "method").trans rfl
  have hvalue : parse? r.wire = some (.object (recordMembers r.entries)) :=
    parse?_record (reads_render hdepth hdoubles)
  have hnomethod : Envelope.present? (recordMembers r.entries) "method" = none :=
    (Envelope.present?_eq_none_iff _ _).2 (.inl hmethod)
  have hresult : Envelope.present? (recordMembers r.entries) "result" =
      r.result.filter (!·.isNull) := by
    rw [Envelope.present?, hmember "result"]
    exact congrArg (Option.filter (!·.isNull)) (map_value_map_document r.result)
  refine Envelope.parse_eq_response_iff.2 ⟨_, hvalue, hnomethod, ?_, ?_⟩
  · rw [hresult, r.present?_error, Option.isSome_map]
    exact hbody
  · rw [Envelope.responseOf, hresult, r.present?_error, ErrorObject.bind_ofJson?_value, hversion,
      hid]
    rfl

end Response

namespace Envelope

/-- The envelopes that are ever made. -/
inductive IsMade : Envelope → Prop where
  | request (id : Option String) (method : String) (params : Json) :
      IsMade (.request (.make id method params))
  | success (id result : Json) : IsMade (.response (.success id result))
  | failure (id : Json) (error : ErrorObject) : IsMade (.response (.failure id error))

/-- How deep arrays and objects are nested in what is sent. -/
def depth : Envelope → Nat
  | request r => r.depth
  | response r => r.depth

def doubles : Envelope → List FiniteBinary64
  | request r => r.doubles
  | response r => r.doubles

/-- Whatever is made comes back as it was sent if its doubles do, except for exactly the failures
with null data, which come back without them. -/
theorem parse_wire_of_isMade {x : Envelope} (h : x.IsMade) (hdepth : x.depth ≤ 127)
    (hdoubles : ∀ y ∈ x.doubles, ReadsBack y) :
    (parse x.wire = some x ↔
      ¬ ∃ id error, x = .response (.failure id error) ∧ error.data = some .null) ∧
    ∀ id error, x = .response (.failure id error) → error.data = some .null →
      parse x.wire = some (.response (.failure id { error with data := none })) := by
  cases h with
  | request id method params =>
    have hid : (id.map Json.string).filter (!·.isNull) = id.map Json.string := by
      cases id <;> rfl
    have hparse := Request.parse_wire hdepth hdoubles
    rw [Request.make, asObject_asObject, hid] at hparse
    exact ⟨iff_of_true hparse (by simp), nofun⟩
  | success id result =>
    have hresult : (some result.asObject).filter (!·.isNull) = some result.asObject := by
      cases result <;> rfl
    have hparse := Response.parse_wire hdepth hdoubles (.inl (by
      rw [Response.success, hresult]
      rfl))
    rw [Response.success, hresult] at hparse
    exact ⟨iff_of_true hparse (by simp [Response.success, Response.failure]),
      by simp [Response.success, Response.failure]⟩
  | failure id error =>
    have hparse : parse (response (.failure id error)).wire =
        some (.response (.failure id error.dropNull)) :=
      Response.parse_wire hdepth hdoubles (.inr rfl)
    rw [hparse]
    constructor
    · simpa [Response.failure] using error.dropNull_eq_self_iff
    · intro id' error' hx hdata
      obtain ⟨rfl, rfl⟩ : id = id' ∧ error = error' := by simpa [Response.failure] using hx
      rw [ErrorObject.dropNull_of_null hdata]

/-- A call with the number 0.5 in its params, and a failure with null data. -/
theorem parse_wire_of_isMade_call_and_null_data :
    let half : FiniteBinary64 := ⟨false, ⟨0x3FE0000000000000, by decide⟩⟩
    let call := request (.make (some "c1") "echo" (.ofList [("x", .number (.double half))]))
    let refusal := response (.failure (.string "s1") ⟨13, "busy", some .null⟩)
    parse call.wire = some call ∧
      parse refusal.wire = some (.response (.failure (.string "s1") ⟨13, "busy", none⟩)) := by
  intro half call refusal
  constructor
  · have hcall := parse_wire_of_isMade (x := call) (.request ..) (by decide +kernel)
      (by decide +kernel)
    exact hcall.1.2 (by simp [call])
  · have hrefusal := parse_wire_of_isMade (x := refusal) (.failure ..) (by decide +kernel)
      (by decide +kernel)
    exact hrefusal.2 _ _ rfl rfl

end Envelope

end DuplexRpc
