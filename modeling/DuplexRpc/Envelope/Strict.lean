import DuplexRpc.Address.Basic
import DuplexRpc.Envelope.Basic
import DuplexRpc.Json.Document

/-!
Strict readings. A record is an object of its fields, none of them twice, or an array of the fields
in order; members that are no fields are skipped unread. Every field has its exact type.
-/
namespace DuplexRpc

namespace Document

/-- The member of a field; `some none` if it is absent. A repeated field is refused. -/
def field? (members : List (String × Document)) (name : String) : Option (Option Document) :=
  match members.filter (·.1 == name) with
  | [] => some none
  | [(_, d)] => some (some d)
  | _ => none

def namedMember? : Option String × Document → Option (String × Document)
  | (some key, d) => some (key, d)
  | (none, _) => none

/-- The fields of a record, in the order of their names. -/
def record? (names : List String) : Document → Option (List (Option Document))
  | object members => do
    let members ← members.mapM namedMember?
    names.mapM (field? members)
  | array items =>
    if names.length < items.length then none
    else some (items.map some ++ List.replicate (names.length - items.length) none)
  | _ => none

def text? : Document → Option String
  | string s => s
  | _ => none

def bool? : Document → Option Bool
  | bool b => some b
  | _ => none

def integer? : Document → Option Int
  | number (some (.integer n _)) => some n
  | _ => none

def isNull : Document → Bool
  | null => true
  | _ => false

/-- The value of a sound document. -/
def json? (depth : Nat) (d : Document) : Option Json :=
  if d.isSound depth then some d.value else none

/-- A field that may be absent or null. -/
def optional? {α : Type} (read : Document → Option α) : Option Document → Option (Option α)
  | none => some none
  | some d => if d.isNull then some none else (read d).map some

def port? (d : Document) : Option UInt16 := do
  let n ← d.integer?
  if 0 ≤ n ∧ n < 65536 then some (.ofNat n.toNat) else none

/-- A scheme is its name, or an object with that name alone and nothing in it. -/
def scheme? : Document → Option Scheme
  | string s => s.bind Scheme.ofText?
  | object [(key, null)] => key.bind Scheme.ofText?
  | _ => none

def address? (d : Document) : Option Address := do
  match ← d.record? ["scheme", "host", "port", "path", "secure"] with
  | [some scheme, some host, some port, some path, some secure] =>
    pure ⟨← scheme.scheme?, ← host.text?, ← port.port?, ← path.text?, ← secure.bool?⟩
  | _ => none

def request? (d : Document) : Option Request := do
  match ← d.record? ["jsonrpc", "id", "method", "params"] with
  | [some version, id, some method, params] =>
    let below := json? (Json.maxDepth - 1)
    pure ⟨← version.text?, ← optional? below id, ← method.text?,
      ← params.elim (some .null) below⟩
  | _ => none

def errorObject? (depth : Nat) (d : Document) : Option ErrorObject := do
  match ← d.record? ["code", "message", "data"] with
  | [some code, some message, data] =>
    pure ⟨← ErrorObject.code32? (← code.integer?), ← message.text?,
      ← optional? (json? (depth - 1)) data⟩
  | _ => none

def response? (d : Document) : Option Response := do
  match ← d.record? ["jsonrpc", "id", "result", "error"] with
  | [some version, some id, result, error] =>
    let depth := Json.maxDepth - 1
    pure ⟨← version.text?, ← id.json? depth, ← optional? (json? depth) result,
      ← optional? (errorObject? depth) error⟩
  | _ => none

/-- The document of a text whose unread parts need not be sound. -/
def ofText? (text : String) : Option Document := (read false text.toList).toOption

end Document

def Scheme.decode? (text : String) : Option Scheme := (Document.ofText? text).bind Document.scheme?

def Address.decode? (text : String) : Option Address :=
  (Document.ofText? text).bind Document.address?

def Request.decode? (text : String) : Option Request :=
  (Document.ofText? text).bind Document.request?

def Response.decode? (text : String) : Option Response :=
  (Document.ofText? text).bind Document.response?

def ErrorObject.decode? (text : String) : Option ErrorObject :=
  (Document.ofText? text).bind (Document.errorObject? Json.maxDepth)

end DuplexRpc
