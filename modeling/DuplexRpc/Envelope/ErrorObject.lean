import DuplexRpc.Json.Printer
import DuplexRpc.Protocol

/-!
The error object of a failed response.
-/
namespace DuplexRpc

structure ErrorObject where
  code : Int32
  message : String
  data : Option Json
  deriving DecidableEq

namespace ErrorObject

def plain (code : Int32) (message : String) : ErrorObject := ⟨code, message, none⟩

def invalidRequest (message : String) : ErrorObject := plain Protocol.invalidRequest message

def methodNotFound (method : String) : ErrorObject :=
  plain Protocol.methodNotFound ("method \"" ++ method ++ "\" not found")

def render (e : ErrorObject) : List Char :=
  Json.renderRecord
    [("code", some (Json.number (.ofInt32 e.code)).render),
     ("message", some (Json.string e.message).render),
     ("data", e.data.map Json.render)]

def wire (e : ErrorObject) : String := String.ofList e.render

def code32? (n : Int) : Option Int32 :=
  if -0x80000000 ≤ n ∧ n < 0x80000000 then some (Int32.ofInt n) else none

/-- A lenient reading: any object will do, and missing or misshapen members get the texts of an
internal error. -/
def ofJson? : Json → Option ErrorObject
  | .object m => some
    { code := ((m.get? "code").bind Json.integer?).bind code32? |>.getD Protocol.internalError
      message := ((m.get? "message").bind Json.string?).getD "internal error"
      data := (m.get? "data").filter (!·.isNull) }
  | _ => none

theorem ofJson?_eq_none_iff (j : Json) :
    ofJson? j = none ↔ ∀ members, j ≠ .object members := by
  cases j with
  | object members => simp [ofJson?]
  | _ => simp [ofJson?]

end ErrorObject
end DuplexRpc
