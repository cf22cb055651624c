import DuplexRpc.Handler
import DuplexRpc.Text.Blank
import DuplexRpc.Text.Quoted

/-!
The handlers for the calls of the peer, by method. The last registration of a method counts, and its
handler starts counting anew. A blank method is refused.
-/
namespace DuplexRpc

/-- A handler in use, and how often it has been called. -/
structure Service where
  handler : Handler
  calls : Nat

/-- Services under their methods, in ascending order. -/
structure Registry where
  services : List (String × Service)

/-- A call of a handler, and whether the log notes it. -/
structure HandlerCall where
  method : String
  params : Json
  logged : Bool
  deriving DecidableEq

namespace Registry

def empty : Registry := ⟨[]⟩

def size (r : Registry) : Nat := r.services.length

def isEmpty (r : Registry) : Bool := r.services.isEmpty

def methods (r : Registry) : List String := r.services.map (·.1)

def get? (r : Registry) (method : String) : Option Service := r.services.lookup method

def has (r : Registry) (method : String) : Bool := (r.get? method).isSome

/-- Sets the service of a method at its place. -/
def place (method : String) (service : Service) : List (String × Service) → List (String × Service)
  | [] => [(method, service)]
  | (m, s) :: rest =>
    if method < m then (method, service) :: (m, s) :: rest
    else if method = m then (method, service) :: rest
    else (m, s) :: place method service rest

theorem lookup_place (method : String) (service : Service) (m : String)
    (services : List (String × Service)) :
    (place method service services).lookup m =
      if m = method then some service else services.lookup m := by
  induction services with
  | nil => by_cases h : m = method <;> simp [place, List.lookup_cons, h, beq_eq_false_iff_ne.2]
  | cons p rest ih =>
    obtain ⟨k, s⟩ := p
    rw [place]
    split
    · by_cases h : m = method <;> simp [List.lookup_cons, h, beq_eq_false_iff_ne.2]
    · split
      · next h =>
        subst h
        by_cases h : m = method <;> simp [List.lookup_cons, h, beq_eq_false_iff_ne.2]
      · next hlt hne =>
        by_cases h : m = k
        · subst h
          simp [Ne.symm hne]
        · simp [List.lookup_cons, ih, beq_eq_false_iff_ne.2 h]

def blankMethod : Failure := .invalidArgument "method is required"

def register (r : Registry) (method : String) (handler : Handler) : Except Failure Registry :=
  if Text.isBlank method then .error blankMethod
  else .ok ⟨place method ⟨handler, 0⟩ r.services⟩

theorem get?_register {r r' : Registry} {method : String} {handler : Handler}
    (h : r.register method handler = .ok r') (m : String) :
    r'.get? m = if m = method then some ⟨handler, 0⟩ else r.get? m := by
  unfold register at h
  split at h
  · cases h
  · cases h
    exact lookup_place ..

/-- Calls the handler of a method; none if there is none. -/
def call (r : Registry) (method : String) (params : Json) :
    Option (HandlerCall × HandlerResult × Registry) :=
  (r.get? method).map fun service =>
    let n := service.calls + 1
    (⟨method, params, service.handler.logged⟩, service.handler.respond n params,
      ⟨place method { service with calls := n } r.services⟩)

def describe (r : Registry) : String :=
  "HandlerRegistry \x7b methods: [" ++ ", ".intercalate (r.methods.map Text.quoted) ++ "] \x7d"

end Registry
end DuplexRpc
