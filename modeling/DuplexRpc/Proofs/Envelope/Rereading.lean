import DuplexRpc.Proofs.Envelope.RoundTrip
import DuplexRpc.Proofs.Json.Checked

/-!
Sending on what was read. Whatever the text was, its envelope is written so that it is read again,
with one exception: a response whose error is no object and that has no result either is left with
neither, and is junk when it is sent on.
-/
namespace DuplexRpc

open Json

variable {text : String} {m : Members none} {key : String} {j : Json}

theorem Json.depth_asObject (j : Json) : j.asObject.depth ≤ max j.depth 1 := by
  cases j with
  | object m => exact Nat.le_max_left ..
  | _ => exact Nat.le_max_right ..

namespace ErrorObject

theorem depth_of_ofJson? {e : ErrorObject} (h : ofJson? j = some e) : e.depth ≤ j.depth := by
  cases j with
  | object m =>
    cases h
    unfold ErrorObject.depth
    cases hdata : (m.get? "data").filter (!·.isNull) with
    | none => exact Nat.succ_le_succ (Nat.zero_le _)
    | some data => exact Nat.succ_le_succ (depth_of_get? m (Option.filter_eq_some_iff.1 hdata).1)
  | _ => cases h

/-- What was read has no null data. -/
theorem dropNull_of_ofJson? {e : ErrorObject} (h : ofJson? j = some e) : e.dropNull = e := by
  cases j with
  | object m =>
    cases h
    rw [dropNull, Option.filter_filter]
    simp only [Bool.and_self]
  | _ => cases h

end ErrorObject

namespace Envelope

/-- A response that holds neither a result nor an error. -/
def IsHollow : Envelope → Prop
  | request _ => False
  | response r => r.result = none ∧ r.error = none

theorem depth_of_present? (h : present? m key = some j) : j.depth ≤ membersDepth m :=
  depth_of_get? m (Option.filter_eq_some_iff.1 h).1

theorem filter_present? (m : Members none) (key : String) :
    (present? m key).filter (!·.isNull) = present? m key := by
  rw [present?, Option.filter_filter]
  simp only [Bool.and_self]

theorem depth_requestOf (m : Members none) (method : Json) :
    (requestOf m method).depth ≤ max (membersDepth m) 1 + 1 := by
  have hid : (requestOf m method).id.elim 0 Json.depth ≤ membersDepth m := by
    unfold requestOf
    dsimp only
    cases hid : present? m "id" with
    | none => exact Nat.zero_le _
    | some id => exact depth_of_present? hid
  have hparams : ((m.get? "params").getD .null).depth ≤ membersDepth m := by
    cases hparams : m.get? "params" with
    | none => exact Nat.zero_le _
    | some params => exact depth_of_get? m hparams
  have hobject := depth_asObject ((m.get? "params").getD .null)
  refine Nat.succ_le_succ (Nat.max_le.2 ⟨Nat.le_trans hid (Nat.le_max_left ..), ?_⟩)
  exact Nat.le_trans hobject (Nat.max_le.2
    ⟨Nat.le_trans hparams (Nat.le_max_left ..), Nat.le_max_right ..⟩)

theorem depth_responseOf (m : Members none) : (responseOf m).depth ≤ membersDepth m + 1 := by
  have hid : (responseOf m).id.depth ≤ membersDepth m := by
    unfold responseOf
    dsimp only
    cases hid : m.get? "id" with
    | none => exact Nat.zero_le _
    | some id => exact depth_of_get? m hid
  have hresult : (responseOf m).result.elim 0 Json.depth ≤ membersDepth m := by
    unfold responseOf
    dsimp only
    cases hresult : present? m "result" with
    | none => exact Nat.zero_le _
    | some result => exact depth_of_present? hresult
  have herror : (responseOf m).error.elim 0 ErrorObject.depth ≤ membersDepth m := by
    cases herror : (responseOf m).error with
    | none => exact Nat.zero_le _
    | some error =>
      obtain ⟨value, hvalue, hread⟩ := Option.bind_eq_some_iff.1 herror
      exact Nat.le_trans (ErrorObject.depth_of_ofJson? hread) (depth_of_present? hvalue)
  exact Nat.succ_le_succ (Nat.max_le.2 ⟨hid, Nat.max_le.2 ⟨hresult, herror⟩⟩)

theorem depth_of_parse {e : Envelope} (h : parse text = some e) : e.depth ≤ maxDepth := by
  cases e with
  | request r =>
    obtain ⟨m, method, hj, -, rfl⟩ := parse_eq_request_iff.1 h
    have hm : membersDepth m + 1 ≤ maxDepth := depth_of_parse? hj
    refine Nat.le_trans (depth_requestOf m method) ?_
    rw [← Nat.add_max_add_right]
    exact Nat.max_le.2 ⟨hm, by decide⟩
  | response r =>
    obtain ⟨m, hj, -, -, rfl⟩ := parse_eq_response_iff.1 h
    exact Nat.le_trans (depth_responseOf m) (depth_of_parse? hj)

theorem parse_wire_of_request {r : Request} (h : parse text = some (.request r))
    (hdoubles : ∀ x ∈ r.doubles, ReadsBack x) : parse r.wire = some (.request r) := by
  have hdepth := depth_of_parse h
  obtain ⟨m, method, -, -, rfl⟩ := parse_eq_request_iff.1 h
  have hparse := Request.parse_wire hdepth hdoubles
  rwa [requestOf, asObject_asObject, filter_present?] at hparse

/-- The error that was read, as an error is read of what is sent. -/
theorem map_dropNull_responseOf (m : Members none) :
    (responseOf m).error.map ErrorObject.dropNull = (responseOf m).error := by
  cases herror : (responseOf m).error with
  | none => rfl
  | some error =>
    obtain ⟨value, -, hread⟩ := Option.bind_eq_some_iff.1 herror
    exact congrArg some (ErrorObject.dropNull_of_ofJson? hread)

theorem parse_wire_of_response {r : Response} (h : parse text = some (.response r))
    (hdoubles : ∀ x ∈ r.doubles, ReadsBack x) (hfull : ¬ (Envelope.response r).IsHollow) :
    parse r.wire = some (.response r) := by
  have hdepth := depth_of_parse h
  obtain ⟨m, -, -, -, rfl⟩ := parse_eq_response_iff.1 h
  have hresult : (responseOf m).result.filter (!·.isNull) = (responseOf m).result :=
    filter_present? m "result"
  have hbody : ((responseOf m).result.filter (!·.isNull)).isSome ∨ (responseOf m).error.isSome := by
    rw [hresult]
    by_contra hneither
    rw [not_or, Option.not_isSome_iff_eq_none, Option.not_isSome_iff_eq_none] at hneither
    exact hfull hneither
  have hparse := Response.parse_wire hdepth hdoubles hbody
  rwa [hresult, map_dropNull_responseOf] at hparse

/-- A response with neither a result nor an error is written as an object without the members that
would make it an envelope. -/
theorem parse_wire_of_hollow {r : Response} (hdepth : r.depth ≤ maxDepth)
    (hdoubles : ∀ x ∈ r.doubles, ReadsBack x) (hollow : (Envelope.response r).IsHollow) :
    parse r.wire = none := by
  have hvalue : Json.parse? r.wire = some (.object (recordMembers r.entries)) :=
    parse?_record (Response.reads_render hdepth hdoubles)
  have habsent (key : String) (hkey : (r.entries.lookup key).join = none) :
      present? (recordMembers r.entries) key = none := by
    rw [present?, get?_recordMembers r.entries key (by simp [Response.entries]), hkey]
    rfl
  have hmethod := habsent "method" rfl
  have hresult := habsent "result" (by simp [Response.entries, List.lookup_cons, hollow.1])
  have herror := habsent "error" (by simp [Response.entries, List.lookup_cons, hollow.2])
  unfold parse classify
  rw [hvalue, Option.bind_some, Json.members?, Option.bind_some, classifyMembers, hmethod]
  simp [hresult, herror]

/-- A response is hollow exactly if it has no result and its error is there but no object. -/
theorem isHollow_responseOf_iff {m : Members none}
    (hbody : (present? m "result").isSome ∨ (present? m "error").isSome) :
    (Envelope.response (responseOf m)).IsHollow ↔ present? m "result" = none ∧
      ∃ error, present? m "error" = some error ∧ ∀ members, error ≠ .object members := by
  refine and_congr_right fun hresult => ?_
  obtain ⟨error, herror⟩ := Option.isSome_iff_exists.1
    (hbody.resolve_left (by rw [show present? m "result" = none from hresult]; simp))
  simp only [responseOf, herror, Option.bind_some, ErrorObject.ofJson?_eq_none_iff,
    Option.some.injEq, exists_eq_left']

/-- Whatever a text is read as is read again from its written form, if its doubles are, except for
exactly the responses that hold neither a result nor an error; these are junk when they are written.
A text is read as one of them exactly if it is an object without a method and a result, and with an
error that is no object. -/
theorem parse_wire_of_parse {e : Envelope} (h : parse text = some e)
    (hdoubles : ∀ x ∈ e.doubles, ReadsBack x) :
    (parse e.wire = some e ↔ ¬ e.IsHollow) ∧ (e.IsHollow → parse e.wire = none) ∧
    (e.IsHollow ↔ ∃ m error, Json.parse? text = some (.object m) ∧ present? m "method" = none ∧
      present? m "result" = none ∧ present? m "error" = some error ∧
      ∀ members, error ≠ .object members) := by
  cases e with
  | request r =>
    obtain ⟨m, method, hj, hmethod, -⟩ := parse_eq_request_iff.1 h
    refine ⟨iff_of_true (parse_wire_of_request h hdoubles) id, False.elim, ?_⟩
    rw [IsHollow, false_iff]
    rintro ⟨m', error, hj', hmethod', -⟩
    cases hj.symm.trans hj'
    cases hmethod.symm.trans hmethod'
  | response r =>
    obtain ⟨m, hj, hmethod, hbody, hr⟩ := parse_eq_response_iff.1 h
    have hnone (hollow : (response r).IsHollow) : parse (response r).wire = none :=
      parse_wire_of_hollow (depth_of_parse h) hdoubles hollow
    refine ⟨⟨fun hsame hollow => ?_, parse_wire_of_response h hdoubles⟩, hnone, ?_⟩
    · cases hsame.symm.trans (hnone hollow)
    · rw [hr, isHollow_responseOf_iff hbody]
      constructor
      · rintro ⟨hresult, error, herror, hother⟩
        exact ⟨m, error, hj, hmethod, hresult, herror, hother⟩
      · rintro ⟨m', error, hj', -, hresult, herror, hother⟩
        cases hj.symm.trans hj'
        exact ⟨hresult, error, herror, hother⟩

/-- A request with a number for its method, 0.5 for its id and params that are no object; an error
object with a double for its code, null data and no message; and a response whose error is a
text. -/
theorem parse_wire_of_parse_misshapen :
    let half : FiniteBinary64 := ⟨false, ⟨0x3FE0000000000000, by decide⟩⟩
    let call := request ⟨"", some (.number (.double half)), "", .empty⟩
    let failed :=
      response ⟨"2.0", .null, none, some ⟨Protocol.internalError, "internal error", none⟩⟩
    let hollow := response ⟨"", .string "c1", none, none⟩
    parse "\x7b\"method\":7,\"id\":0.5,\"params\":[]\x7d" = some call ∧
      parse call.wire = some call ∧
    parse "\x7b\"jsonrpc\":\"2.0\",\"error\":\x7b\"code\":1e3,\"data\":null\x7d\x7d" =
        some failed ∧
      parse failed.wire = some failed ∧
    parse "\x7b\"id\":\"c1\",\"error\":\"boom\"\x7d" = some hollow ∧ parse hollow.wire = none := by
  intro half call failed hollow
  have hcall : parse "\x7b\"method\":7,\"id\":0.5,\"params\":[]\x7d" = some call := by
    decide +kernel
  have hfailed : parse
      "\x7b\"jsonrpc\":\"2.0\",\"error\":\x7b\"code\":1e3,\"data\":null\x7d\x7d" = some failed := by
    decide +kernel
  have hhollow : parse "\x7b\"id\":\"c1\",\"error\":\"boom\"\x7d" = some hollow := by
    decide +kernel
  refine ⟨hcall, ?_, hfailed, ?_, hhollow, ?_⟩
  · exact (parse_wire_of_parse hcall (by decide +kernel)).1.2 (by simp [call, IsHollow])
  · exact (parse_wire_of_parse hfailed (by decide +kernel)).1.2 (by simp [failed, IsHollow])
  · exact (parse_wire_of_parse hhollow (by decide +kernel)).2.1 ⟨rfl, rfl⟩

end Envelope

end DuplexRpc
