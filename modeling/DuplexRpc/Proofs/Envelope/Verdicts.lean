import DuplexRpc.Proofs.Envelope.IdKey

/-!
What a frame calls for. The verdict on a request is to be silent only if it has no id, to reply only
if it has one, and to run a handler only if the text says so in every respect.
-/
namespace DuplexRpc

/-- A reply to the request with an id: it carries the id, and a result or an error. -/
structure Response.Answers (id : Json) (response : Response) : Prop where
  id : response.id = id
  version : response.version = "2.0"
  one : (∃ members, response.result = some (.object members) ∧ response.error = none) ∨
    (response.result = none ∧ ∃ error, response.error = some error)

/-- The text is a request that a handler is to run for. -/
def Envelope.Admits (has : String → Bool) (text : String) : Prop :=
  ∃ m, Json.parse? text = some (.object m) ∧ m.get? "jsonrpc" = some (.string "2.0") ∧
    (∃ method, m.get? "method" = some (.string method) ∧ Text.isBlank method = false ∧
      method ≠ "rpc.heartbeat" ∧ has method = true) ∧
    (m.get? "id" = none ∨ m.get? "id" = some .null ∨
      ∃ rest, m.get? "id" = some (.string ("s" ++ rest)))

namespace Response

theorem success_answers (id result : Json) : (Response.success id result).Answers id :=
  ⟨rfl, rfl, .inl (by cases result <;> exact ⟨_, rfl, rfl⟩)⟩

theorem failure_answers (id : Json) (error : ErrorObject) :
    (Response.failure id error).Answers id :=
  ⟨rfl, rfl, .inr ⟨rfl, error, rfl⟩⟩

end Response

theorem HandlerResult.reply_answers (id : Json) (result : HandlerResult) :
    (result.reply id).Answers id := by
  cases result with
  | returned value => exact Response.success_answers id value
  | failed failure => exact Response.failure_answers id _
  | broke message => exact Response.failure_answers id _

namespace Request

/-- An id of the peer's calls is a text, as no number begins with its mark. -/
theorem hasServerId_iff (r : Request) :
    r.hasServerId = true ↔ r.id = none ∨ ∃ rest, r.id = some (.string ("s" ++ rest)) := by
  have hmark (key : String) : Protocol.serverMark.toList.isPrefixOf key.toList = true ↔
      ∃ rest, key = "s" ++ rest := by
    rw [List.isPrefixOf_iff_prefix]
    constructor
    · rintro ⟨rest, hrest⟩
      exact ⟨String.ofList rest, String.toList_inj.1 (by simp [← hrest, Protocol.serverMark])⟩
    · rintro ⟨rest, rfl⟩
      exact ⟨rest.toList, by simp [Protocol.serverMark]⟩
  unfold hasServerId
  cases hid : r.id with
  | none => simp
  | some id =>
    simp only [Option.any_eq_true, reduceCtorEq, Option.some.injEq, false_or]
    constructor
    · rintro ⟨key, hkey, hstarts⟩
      obtain ⟨rest, rfl⟩ := (hmark key).1 hstarts
      exact ⟨rest, (Envelope.idKey_eq_some_iff 's' (by simp) rfl).1 hkey⟩
    · rintro ⟨rest, rfl⟩
      exact ⟨_, rfl, (hmark _).2 ⟨rest, rfl⟩⟩

theorem refuse_ne_handle (r : Request) (error : ErrorObject) : r.refuse error ≠ .handle := by
  unfold refuse
  cases r.id <;> simp

theorem verdict_eq_handle_iff (r : Request) (registry : Registry) :
    r.verdict registry = .handle ↔ r.version = "2.0" ∧ Text.isBlank r.method = false ∧
      r.method ≠ "rpc.heartbeat" ∧ r.hasServerId = true ∧ registry.has r.method = true := by
  unfold verdict
  split
  next h =>
    simp only [refuse_ne_handle, false_iff]
    rintro ⟨hversion, hblank, -⟩
    rcases h with h | h
    · exact h hversion
    · rw [hblank] at h
      cases h
  next h =>
    simp only [not_or, Decidable.not_not, Bool.not_eq_true] at h
    split
    next hheart =>
      cases r.id <;> simp [Protocol.heartbeatMethod] at hheart ⊢ <;> simp [hheart]
    next hheart =>
      split
      next hserver => simp_all [refuse_ne_handle]
      next hserver =>
        split
        next hhas => simp_all [Protocol.version, Protocol.heartbeatMethod]
        next hhas => simp_all [refuse_ne_handle]

theorem id_of_refuse {r : Request} {error : ErrorObject} :
    (r.refuse error = .ignore → r.id = none) ∧
      ∀ response, r.refuse error = .reply response →
        ∃ id, r.id = some id ∧ response.Answers id := by
  unfold refuse
  cases r.id with
  | none => simp
  | some id =>
    refine ⟨nofun, fun response h => ?_⟩
    cases h
    exact ⟨id, rfl, Response.failure_answers id error⟩

/-- Without a handler a request gets its reply at once, if it has an id. -/
theorem id_of_verdict (r : Request) (registry : Registry) :
    (r.verdict registry = .ignore → r.id = none) ∧
      ∀ response, r.verdict registry = .reply response →
        ∃ id, r.id = some id ∧ response.Answers id := by
  unfold verdict
  split
  · exact id_of_refuse
  · split
    · cases hid : r.id with
      | none => simp
      | some id =>
        refine ⟨nofun, fun response h => ?_⟩
        cases h
        exact ⟨id, rfl, Response.success_answers id .empty⟩
    · split
      · exact id_of_refuse
      · split
        · exact ⟨nofun, nofun⟩
        · exact id_of_refuse

end Request

namespace Envelope

theorem textOrEmpty_eq_some_iff {j : Option Json} {s : String} (hs : s ≠ "") :
    textOrEmpty j = s ↔ j = some (.string s) := by
  unfold textOrEmpty
  constructor
  · intro h
    cases j with
    | none => exact absurd h.symm hs
    | some j =>
      cases j with
      | string s' =>
        cases h
        rfl
      | _ => exact absurd h.symm hs
  · rintro rfl
    rfl

theorem present?_eq_none_iff (m : Members none) (key : String) :
    present? m key = none ↔ m.get? key = none ∨ m.get? key = some .null := by
  unfold present?
  cases h : m.get? key with
  | none => simp
  | some j => cases j <;> simp [Json.isNull]

theorem present?_eq_some_iff {m : Members none} {key : String} {j : Json} (hj : j ≠ .null) :
    present? m key = some j ↔ m.get? key = some j := by
  unfold present?
  cases h : m.get? key with
  | none => simp
  | some j' => cases j' <;> simp [Json.isNull, Ne.symm hj]

/-- The request that an object with a method is. -/
def requestOf (m : Members none) (method : Json) : Request :=
  { version := textOrEmpty (m.get? "jsonrpc")
    id := present? m "id"
    method := textOrEmpty (some method)
    params := ((m.get? "params").getD .null).asObject }

/-- Whatever is no object is junk, and the members of an object say what it is. -/
theorem parse_eq_some_iff {text : String} {e : Envelope} :
    parse text = some e ↔
      ∃ m, Json.parse? text = some (.object m) ∧ classifyMembers m = some e := by
  constructor
  · intro h
    obtain ⟨j, hj, hmembers⟩ := Option.bind_eq_some_iff.1 h
    obtain ⟨m, hm, hclass⟩ := Option.bind_eq_some_iff.1 hmembers
    cases j with
    | object m' =>
      cases hm
      exact ⟨m, hj, hclass⟩
    | _ => cases hm
  · rintro ⟨m, hj, hclass⟩
    rw [parse, hj, Option.bind_some, classify, Json.members?, Option.bind_some, hclass]

theorem parse_eq_request_iff {text : String} {r : Request} :
    parse text = some (.request r) ↔ ∃ m method, Json.parse? text = some (.object m) ∧
      present? m "method" = some method ∧ r = requestOf m method := by
  rw [parse_eq_some_iff]
  constructor
  · rintro ⟨m, hj, hclass⟩
    unfold classifyMembers at hclass
    split at hclass
    next method hmethod =>
      cases hclass
      exact ⟨m, method, hj, hmethod, rfl⟩
    next =>
      dsimp only at hclass
      split at hclass <;> cases hclass
  · rintro ⟨m, method, hj, hmethod, rfl⟩
    exact ⟨m, hj, by simp only [classifyMembers, hmethod, requestOf]⟩

/-- The response that an object without a method is. -/
def responseOf (m : Members none) : Response :=
  { version := textOrEmpty (m.get? "jsonrpc")
    id := (m.get? "id").getD .null
    result := present? m "result"
    error := (present? m "error").bind ErrorObject.ofJson? }

theorem parse_eq_response_iff {text : String} {r : Response} :
    parse text = some (.response r) ↔ ∃ m, Json.parse? text = some (.object m) ∧
      present? m "method" = none ∧
      ((present? m "result").isSome ∨ (present? m "error").isSome) ∧ r = responseOf m := by
  rw [parse_eq_some_iff]
  have hbody (m : Members none) :
      ((present? m "result").isNone && (present? m "error").isNone) = false ↔
        (present? m "result").isSome ∨ (present? m "error").isSome := by
    rw [Bool.and_eq_false_iff, Option.isNone_eq_false_iff, Option.isNone_eq_false_iff]
  constructor
  · rintro ⟨m, hj, hclass⟩
    unfold classifyMembers at hclass
    split at hclass
    next => cases hclass
    next hmethod =>
      dsimp only at hclass
      split at hclass
      next => cases hclass
      next hsome =>
        cases hclass
        exact ⟨m, hj, hmethod, (hbody m).1 (Bool.not_eq_true _ ▸ hsome), rfl⟩
  · rintro ⟨m, hj, hmethod, hsome, rfl⟩
    refine ⟨m, hj, ?_⟩
    rw [classifyMembers, hmethod]
    simp only [(hbody m).2 hsome, Bool.false_eq_true, if_false, responseOf]

/-- A handler is to run for a text exactly if the verdict on it says so. -/
theorem admits_iff (registry : Registry) (text : String) :
    Admits registry.has text ↔
      ∃ r, parse text = some (.request r) ∧ r.verdict registry = .handle := by
  constructor
  · rintro ⟨m, hj, hversion, ⟨method, hmethod, hblank, hheart, hhas⟩, hid⟩
    refine ⟨requestOf m (.string method), parse_eq_request_iff.2 ⟨m, .string method, hj,
      (present?_eq_some_iff (by simp)).2 hmethod, rfl⟩, ?_⟩
    rw [Request.verdict_eq_handle_iff, Request.hasServerId_iff]
    refine ⟨(textOrEmpty_eq_some_iff (by simp)).2 hversion, hblank, hheart, ?_, hhas⟩
    rcases hid with hid | hid | ⟨rest, hid⟩
    · exact .inl ((present?_eq_none_iff m "id").2 (.inl hid))
    · exact .inl ((present?_eq_none_iff m "id").2 (.inr hid))
    · exact .inr ⟨rest, (present?_eq_some_iff (by simp)).2 hid⟩
  · rintro ⟨r, hparse, hverdict⟩
    obtain ⟨m, method, hj, hmethod, rfl⟩ := parse_eq_request_iff.1 hparse
    rw [Request.verdict_eq_handle_iff, Request.hasServerId_iff] at hverdict
    obtain ⟨hversion, hblank, hheart, hid, hhas⟩ := hverdict
    refine ⟨m, hj, (textOrEmpty_eq_some_iff (by simp)).1 hversion, ?_, ?_⟩
    · cases method with
      | string name =>
        exact ⟨name, (present?_eq_some_iff (by simp)).1 hmethod, hblank, hheart, hhas⟩
      | _ => cases hblank
    · rcases hid with hid | ⟨rest, hid⟩
      · rcases (present?_eq_none_iff m "id").1 hid with hid | hid
        · exact .inl hid
        · exact .inr (.inl hid)
      · exact .inr (.inr ⟨rest, (present?_eq_some_iff (by simp)).1 hid⟩)

end Envelope
end DuplexRpc
