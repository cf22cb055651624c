import DuplexRpc.Envelope.ErrorObject

/-!
Envelopes: the requests and responses that travel over a link, one a text frame.
-/
namespace DuplexRpc

/-- A request; without an id it is a notification and gets no reply. -/
structure Request where
  version : String
  id : Option Json
  method : String
  params : Json
  deriving DecidableEq

structure Response where
  version : String
  id : Json
  result : Option Json
  error : Option ErrorObject
  deriving DecidableEq

inductive Envelope where
  | request (request : Request)
  | response (response : Response)
  deriving DecidableEq

namespace Request

def make (id : Option String) (method : String) (params : Json) : Request :=
  ⟨Protocol.version, id.map .string, method, params.asObject⟩

def render (r : Request) : List Char :=
  Json.renderRecord
    [("jsonrpc", some (Json.string r.version).render),
     ("id", r.id.map Json.render),
     ("method", some (Json.string r.method).render),
     ("params", some r.params.render)]

def wire (r : Request) : String := String.ofList r.render

end Request

namespace Response

def success (id : Json) (result : Json) : Response :=
  ⟨Protocol.version, id, some result.asObject, none⟩

def failure (id : Json) (error : ErrorObject) : Response :=
  ⟨Protocol.version, id, none, some error⟩

def render (r : Response) : List Char :=
  Json.renderRecord
    [("jsonrpc", some (Json.string r.version).render),
     ("id", some r.id.render),
     ("result", r.result.map Json.render),
     ("error", r.error.map ErrorObject.render)]

def wire (r : Response) : String := String.ofList r.render

end Response

namespace Envelope

def wire : Envelope → String
  | request r => r.wire
  | response r => r.wire

/-- The text under which an id is looked up: a text as it is, a number as it is written. -/
def idKey : Json → Option String
  | .string s => some s
  | .number n => some (String.ofList (Json.renderNumber n))
  | _ => none

end Envelope
end DuplexRpc
