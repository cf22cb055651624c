import DuplexRpc.Client.Receiving
import DuplexRpc.Proofs.Pending.Sound

/-!
What a response with an error does to its call. The error decides the outcome only if it is an
object; any other value is read as no error at all, and the call succeeds.
-/
namespace DuplexRpc

namespace Client

variable {c : Client} {text id : String} {m : Members none} {r : Response} {e : Json} {n : Nat}

theorem error_of_classify (h : Envelope.classify (.object m) = some (.response r)) :
    r.error = (Envelope.present? m "error").bind ErrorObject.ofJson? := by
  unfold Envelope.classify Json.members? Envelope.classifyMembers at h
  dsimp only [Option.bind_some] at h
  split at h
  · cases h
  · split at h
    · cases h
    · cases h
      rfl

/-- A text that is a response with an error settles the waiting call of its id. The call fails
exactly if the error is an object; it succeeds with the result, whatever that is, if the error is
anything else. -/
theorem error_response_fails_iff_object (hjson : Json.parse? text = some (.object m))
    (hparse : Envelope.parse text = some (.response r))
    (herror : m.get? "error" = some e) (hnull : e ≠ .null)
    (hid : Envelope.idKey r.id = some id) (hfind : c.shared.pending.find? id = some n)
    (hslot : c.shared.pending.slot? n = some .waiting) :
    ∃ outcome, (c.receiveText text).1.shared.pending.slot? n = some (.answered outcome) ∧
      ((∃ failure, outcome = .error failure) ↔ ∃ members, e = .object members) ∧
      ((∀ members, e ≠ .object members) → outcome = .ok (r.result.getD .null).asObject) := by
  have hread : r.error = ErrorObject.ofJson? e := by
    have hclass : Envelope.classify (.object m) = some (.response r) := by
      rw [← hparse, Envelope.parse, hjson]
      rfl
    rw [error_of_classify hclass, Envelope.present?, herror]
    cases e with
    | null => exact absurd rfl hnull
    | _ => rfl
  have hsettled : (c.receiveText text).1.shared.pending =
      (c.shared.pending.resolve id r.outcome).2 := by
    simp only [receiveText, hparse, update, Response.settle, hid]
  refine ⟨r.outcome, ?_, ?_, ?_⟩
  · simp [hsettled, hfind, hslot, Slot.deliver]
  · cases hobject : ErrorObject.ofJson? e with
    | none =>
      have hother := (ErrorObject.ofJson?_eq_none_iff e).1 hobject
      simp only [Response.outcome, hread, hobject, reduceCtorEq, exists_false, false_iff,
        not_exists]
      exact hother
    | some error =>
      have hmembers : ∃ members, e = .object members := by
        cases e with
        | object members => exact ⟨members, rfl⟩
        | _ => cases hobject
      simp only [Response.outcome, hread, hobject, Except.error.injEq, exists_eq', hmembers]
  · intro hother
    rw [Response.outcome, hread, (ErrorObject.ofJson?_eq_none_iff e).2 hother]

/-- A client with one call that waits under the id `c1`. -/
def withOneCall : Client :=
  (fresh .standard).update fun s => { s with pending := .run .empty [.register "c1"] }

/-- A response to that call with an error object. -/
def objectError : String :=
  "\x7b\"id\":\"c1\",\"error\":\x7b\"code\":7\x7d\x7d"

theorem error_response_fails_iff_object_code : ∃ m e outcome,
    Json.parse? objectError = some (.object m) ∧ m.get? "error" = some e ∧ e ≠ .null ∧
    withOneCall.shared.pending.find? "c1" = some 0 ∧
    (withOneCall.receiveText objectError).1.shared.pending.slot? 0 = some (.answered outcome) ∧
    ((∃ failure, outcome = .error failure) ↔ ∃ members, e = .object members) := by
  have hjson : Json.parse? objectError = some (.object (.ofList
      [("id", .string "c1"), ("error", .ofList [("code", .number (.ofInt32 7))])])) := by
    decide +kernel
  have hparse : Envelope.parse objectError =
      some (.response ⟨"", .string "c1", none, some ⟨7, "internal error", none⟩⟩) := by
    decide +kernel
  have herror : (Members.ofList [("id", .string "c1"),
      ("error", .ofList [("code", .number (.ofInt32 7))])]).get? "error" =
        some (.ofList [("code", .number (.ofInt32 7))]) := by
    decide +kernel
  have hnull : Json.ofList [("code", .number (.ofInt32 7))] ≠ .null := by
    decide +kernel
  obtain ⟨outcome, hslot, hiff, -⟩ := error_response_fails_iff_object (c := withOneCall) (n := 0)
    hjson hparse herror hnull rfl rfl rfl
  exact ⟨_, _, outcome, hjson, herror, hnull, rfl, hslot, hiff⟩

/-- A response whose error is a text. -/
def textError : String :=
  "\x7b\"id\":\"c1\",\"error\":\"boom\"\x7d"

theorem error_text_completes_call :
    Envelope.parse textError = some (.response ⟨"", .string "c1", none, none⟩) ∧
      (Json.parse? textError).bind (·.get? "error") = some (.string "boom") ∧
      withOneCall.shared.pending.find? "c1" = some 0 ∧
      withOneCall.shared.pending.slot? 0 = some .waiting ∧
      (withOneCall.receiveText textError).1.shared.pending.slot? 0 =
        some (.answered (.ok .empty)) := by
  decide +kernel

end Client
end DuplexRpc
