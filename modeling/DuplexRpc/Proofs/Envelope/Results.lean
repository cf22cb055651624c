import DuplexRpc.Proofs.Envelope.RoundTrip

/-!
From the result of a handler to the outcome of a call. The reply that is made of the result is read
back with the value as an object, with an explicit error but for null data, or with the fault of a
handler for any other failure or break-off. An error that has come this way comes through again.
-/
namespace DuplexRpc

open Json

/-- How a failure is worded. -/
def Failure.display : Failure → String
  | invalidArgument message => "Invalid argument: " ++ message
  | unsupportedScheme uri => "Unsupported transport URI: " ++ uri
  | io message _ => "IO error: " ++ message
  | protocol message => "Protocol error: " ++ message
  | json message _ => "JSON error: " ++ message
  | webSocket message => "WebSocket error: " ++ message
  | notConnected => "websocket is not connected"
  | timeout after => "Request timeout after " ++ after.text
  | connectionClosed => "holon-rpc connection closed"
  | clientClosed => "holon-rpc client closed"
  | cancelled => "Operation was cancelled"
  | rpc e => "rpc error " ++ toString e.code.toInt ++ ": " ++ e.message
  | other message => message

/-- What the caller gets of a handler's result: an object as it is and any other value as the empty
object, an explicit error without null data, and otherwise code 13 with the wording of the failure,
or the text with which the handler broke off. -/
def HandlerResult.arrived : HandlerResult → Outcome
  | returned (.object members) => .ok (.object members)
  | returned _ => .ok .empty
  | failed (.rpc ⟨code, message, some .null⟩) => .error (.rpc ⟨code, message, none⟩)
  | failed (.rpc error) => .error (.rpc error)
  | failed failure => .error (.rpc ⟨13, failure.display, none⟩)
  | broke (some text) => .error (.rpc ⟨13, text, none⟩)
  | broke none => .error (.rpc ⟨13, "handler panicked", none⟩)

namespace HandlerResult

@[simp] theorem arrived_returned (value : Json) :
    (returned value).arrived = .ok value.asObject := by
  cases value <;> rfl

@[simp] theorem arrived_failed (failure : Failure) :
    (failed failure).arrived = .error (.rpc failure.toErrorObject.dropNull) := by
  cases failure with
  | rpc error =>
    obtain ⟨code, message, _ | data⟩ := error
    · rfl
    · cases data <;> rfl
  | _ => rfl

@[simp] theorem arrived_broke (message : Option String) :
    (broke message).arrived = .error (.rpc (.plain Protocol.handlerFault (breakText message))) := by
  cases message <;> rfl

end HandlerResult

/-- A text that reading gives back as it is, if its doubles are. -/
def Response.IsReadable (r : Response) : Prop := r.depth ≤ 127 ∧ ∀ x ∈ r.doubles, ReadsBack x

theorem Response.parse_wire_success {id value : Json} (h : (success id value).IsReadable) :
    Envelope.parse (success id value).wire = some (.response (success id value)) := by
  have hvalue : (some value.asObject).filter (!·.isNull) = some value.asObject := by
    cases value <;> rfl
  have hparse := Response.parse_wire h.1 h.2 (.inl (by rw [success, hvalue]; rfl))
  rwa [success, hvalue] at hparse

theorem Response.parse_wire_failure {id : Json} {error : ErrorObject}
    (h : (failure id error).IsReadable) :
    Envelope.parse (failure id error).wire = some (.response (failure id error.dropNull)) :=
  Response.parse_wire h.1 h.2 (.inr rfl)

theorem HandlerResult.parse_reply {id : Json} {result : HandlerResult}
    (h : (result.reply id).IsReadable) : ∃ r, Envelope.parse (result.reply id).wire =
      some (.response r) ∧ r.id = id ∧ r.outcome = result.arrived := by
  cases result with
  | returned value =>
    refine ⟨_, Response.parse_wire_success h, rfl, ?_⟩
    rw [arrived_returned]
    exact congrArg Except.ok (asObject_asObject value)
  | failed failure => exact ⟨_, Response.parse_wire_failure h, rfl, (arrived_failed failure).symm⟩
  | broke message => exact ⟨_, Response.parse_wire_failure h, rfl, (arrived_broke message).symm⟩

namespace ErrorObject

@[simp] theorem dropNull_dropNull (e : ErrorObject) : e.dropNull.dropNull = e.dropNull := by
  rw [dropNull, dropNull, Option.filter_filter]
  simp only [Bool.and_self]

/-- Dropping null data makes nothing deeper and brings no double. -/
theorem dropNull_le (e : ErrorObject) :
    e.dropNull.depth ≤ e.depth ∧ e.dropNull.doubles ⊆ e.doubles := by
  by_cases h : e.data = some .null
  · rw [dropNull_of_null h]
    exact ⟨Nat.le_add_left .., List.nil_subset _⟩
  · rw [(dropNull_eq_self_iff e).2 h]
    exact ⟨Nat.le_refl _, List.Subset.refl _⟩

end ErrorObject

theorem Response.isReadable_success {id : String} {value : Json} :
    (success (.string id) value).IsReadable ↔
      value.asObject.depth < 127 ∧ ∀ x ∈ value.asObject.doubles, ReadsBack x := by
  have hdepth : (success (.string id) value).depth = value.asObject.depth + 1 := by
    simp [Response.depth, success, Json.depth]
  have hdoubles : (success (.string id) value).doubles = value.asObject.doubles := by
    simp [Response.doubles, success, Json.doubles]
  rw [IsReadable, hdepth, hdoubles, Nat.succ_le_iff]

theorem Response.isReadable_failure {id : String} {error : ErrorObject} :
    (failure (.string id) error).IsReadable ↔
      error.depth < 127 ∧ ∀ x ∈ error.doubles, ReadsBack x := by
  have hdepth : (failure (.string id) error).depth = error.depth + 1 := by
    simp [Response.depth, failure, Json.depth]
  have hdoubles : (failure (.string id) error).doubles = error.doubles := by
    simp [Response.doubles, failure, Json.doubles]
  rw [IsReadable, hdepth, hdoubles, Nat.succ_le_iff]

/-- An error that arrives is one that was sent, but for null data. -/
theorem HandlerResult.sent_of_arrived {result : HandlerResult} {error : ErrorObject}
    (h : result.arrived = .error (.rpc error)) :
    ∃ e, (∀ id, result.reply id = .failure id e) ∧ error = e.dropNull := by
  cases result with
  | returned value => cases (arrived_returned value).symm.trans h
  | failed failure =>
    cases (arrived_failed failure).symm.trans h
    exact ⟨_, fun _ => rfl, rfl⟩
  | broke message =>
    cases (arrived_broke message).symm.trans h
    exact ⟨_, fun _ => rfl, rfl⟩

/-- So it can be sent again, and arrives as it is. -/
theorem HandlerResult.relay {result : HandlerResult} {error : ErrorObject} {id : String}
    (h : result.arrived = .error (.rpc error)) (hread : (result.reply (.string id)).IsReadable)
    (id' : String) : ((failed (.rpc error)).reply (.string id')).IsReadable ∧
      (failed (.rpc error)).arrived = .error (.rpc error) := by
  obtain ⟨e, hreply, rfl⟩ := sent_of_arrived h
  rw [hreply, Response.isReadable_failure] at hread
  obtain ⟨hdepth, hdoubles⟩ := e.dropNull_le
  refine ⟨Response.isReadable_failure.2 ⟨Nat.lt_of_le_of_lt hdepth hread.1,
    fun x hx => hread.2 x (hdoubles hx)⟩, ?_⟩
  rw [arrived_failed, Failure.toErrorObject, e.dropNull_dropNull]

end DuplexRpc
