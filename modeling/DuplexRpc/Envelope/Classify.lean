import DuplexRpc.Envelope.Basic
import DuplexRpc.Json.Document

/-!
Telling requests, responses and junk apart. The reading is lenient: any object with a method is a
request, whatever else it holds, so that a bad one can still be answered; an object without a method
but with a result or an error is a response. A null member counts as absent.
-/
namespace DuplexRpc.Envelope

/-- A member that is there and not null. -/
def present? (m : Members none) (key : String) : Option Json :=
  (m.get? key).filter (!·.isNull)

def textOrEmpty (j : Option Json) : String := (j.bind Json.string?).getD ""

def classifyMembers (m : Members none) : Option Envelope :=
  match present? m "method" with
  | some method =>
    some (.request
      { version := textOrEmpty (m.get? "jsonrpc")
        id := present? m "id"
        method := textOrEmpty (some method)
        params := ((m.get? "params").getD .null).asObject })
  | none =>
    let result := present? m "result"
    let error := present? m "error"
    if result.isNone && error.isNone then none
    else some (.response
      { version := textOrEmpty (m.get? "jsonrpc")
        id := (m.get? "id").getD .null
        result
        error := error.bind ErrorObject.ofJson? })

def classify (j : Json) : Option Envelope := j.members?.bind classifyMembers

/-- The envelope of a text frame; none for a frame that is junk. -/
def parse (text : String) : Option Envelope := (Json.parse? text).bind classify

end DuplexRpc.Envelope
