import DuplexRpc.Failure

/-!
Handlers of calls. A handler answers by the number of its call and the params, and may fail or break
off. The stock handlers are small services to try a link with.
-/
namespace DuplexRpc

inductive HandlerResult where
  | returned (value : Json)
  | failed (failure : Failure)
  /-- the handler broke off, with a text if it gave one -/
  | broke (message : Option String)
  deriving DecidableEq

/-- What the peer is told when a handler broke off. -/
def HandlerResult.breakText (message : Option String) : String :=
  message.getD "handler panicked"

structure Handler where
  /-- the result of the call with this number, counted from one -/
  respond : Nat → Json → HandlerResult
  /-- the calls are noted in the log -/
  logged : Bool

namespace Handler

/-- A logged handler whose result depends on the params alone. -/
def ofParams (respond : Json → HandlerResult) : Handler := ⟨fun _ params => respond params, true⟩

def echo : Handler := .ofParams .returned

def constant (value : Json) : Handler := .ofParams fun _ => .returned value

/-- One member of the params. -/
def field (name : String) : Handler :=
  .ofParams fun params => .returned ((params.get? name).getD .null)

def greeting : Handler :=
  .ofParams fun params =>
    let name := ((params.get? "name").bind Json.string?).getD ""
    .returned (.ofList [("message", .string ("hello " ++ name))])

/-- The number of the call. -/
def counter : Handler :=
  ⟨fun n _ => .returned (.ofList [("n", (Json.ofNat? n).getD .null)]), true⟩

def failing (failure : Failure) : Handler := .ofParams fun _ => .failed failure

def breaking (message : Option String) : Handler := .ofParams fun _ => .broke message

/-- A handler that leaves no trace in the log. -/
def silent (value : Json) : Handler := ⟨fun _ _ => .returned value, false⟩

end Handler
end DuplexRpc
