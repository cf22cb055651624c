import DuplexRpc.Binary64.Basic

/-!
JSON values. The members of an object stand in ascending order of their keys, one member a key, by
the type itself: a tail may only hold keys above the head's. So two objects with the same members
are the same value.
-/
namespace DuplexRpc

/-- Integers that fit 64 bits, with or without a sign, are exact; any other number is a double. -/
inductive Number where
  | integer (value : Int) (fits : -0x8000000000000000 ≤ value ∧ value < 0x10000000000000000)
  | double (value : FiniteBinary64)
  deriving DecidableEq

namespace Number

def ofInt? (n : Int) : Option Number :=
  if h : -0x8000000000000000 ≤ n ∧ n < 0x10000000000000000 then some (.integer n h) else none

def ofInt32 (n : Int32) : Number :=
  .integer n.toInt (by have := n.le_toInt; have := n.toInt_lt; omega)

def ofUInt16 (n : UInt16) : Number :=
  .integer n.toNat (by have := n.toNat_lt; omega)

def toBinary64 : Number → Binary64
  | integer n _ => .ofInt n
  | double x => .finite x

end Number

/-- A key that may stand after `lower`. -/
def Follows : Option String → String → Prop
  | none, _ => True
  | some lower, key => lower < key

instance (lower : Option String) (key : String) : Decidable (Follows lower key) :=
  match lower with
  | none => .isTrue trivial
  | some lower => inferInstanceAs (Decidable (lower < key))

mutual

inductive Json where
  | null
  | bool (value : Bool)
  | number (value : Number)
  | string (value : String)
  | array (items : List Json)
  | object (members : Members none)

/-- Members whose keys all follow `lower`. -/
inductive Members : Option String → Type where
  | nil {lower : Option String} : Members lower
  | cons {lower : Option String} (key : String) (follows : Follows lower key) (value : Json)
      (rest : Members (some key)) : Members lower

end

namespace Members

def get? : {lower : Option String} → Members lower → String → Option Json
  | _, nil, _ => none
  | _, cons k _ v rest, key => if k = key then some v else rest.get? key

def toList : {lower : Option String} → Members lower → List (String × Json)
  | _, nil => []
  | _, cons k _ v rest => (k, v) :: rest.toList

def size {lower : Option String} (m : Members lower) : Nat := m.toList.length

/-- Sets one member; an earlier value of the key is replaced. -/
def insert (key : String) (value : Json) :
    {lower : Option String} → Follows lower key → Members lower → Members lower
  | _, follows, nil => cons key follows value nil
  | _, follows, cons k hk v rest =>
    if hlt : key < k then cons key follows value (cons k hlt v rest)
    else if heq : key = k then cons key follows value (heq ▸ rest)
    else cons k hk v (rest.insert key value
      (Decidable.byContradiction fun hn =>
        heq (String.le_antisymm (String.not_lt.1 hn) (String.not_lt.1 hlt))))

/-- An insertion sets its own key and leaves every other alone. -/
theorem get?_insert (key : String) (value : Json) (k : String) :
    ∀ {lower : Option String} (follows : Follows lower key) (m : Members lower),
      (m.insert key value follows).get? k = if key = k then some value else m.get? k
  | _, _, nil => by simp [insert, get?]
  | _, _, cons k' hk v rest => by
    rw [insert]
    split
    · simp [get?]
    · next hlt =>
      split
      · next heq =>
        subst heq
        by_cases h : key = k <;> simp [get?, h]
      · next heq =>
        rw [get?, get?, get?_insert key value k _ rest]
        by_cases h : k' = k
        · subst h
          simp [heq]
        · simp [h]

/-- Of several values for one key the last counts. -/
def ofList (members : List (String × Json)) : Members none :=
  members.foldl (fun m (key, value) => m.insert key value trivial) nil

theorem get?_ofList_append (ms : List (String × Json)) (key : String) (value : Json) (k : String) :
    (ofList (ms ++ [(key, value)])).get? k =
      if key = k then some value else (ofList ms).get? k := by
  rw [ofList, List.foldl_append]
  exact get?_insert ..

end Members

namespace Json

def ofList (members : List (String × Json)) : Json := .object (.ofList members)

def empty : Json := .object .nil

def ofNat? (n : Nat) : Option Json := (Number.ofInt? n).map .number

def string? : Json → Option String
  | string s => some s
  | _ => none

def bool? : Json → Option Bool
  | bool b => some b
  | _ => none

def members? : Json → Option (Members none)
  | object m => some m
  | _ => none

def array? : Json → Option (List Json)
  | array items => some items
  | _ => none

def integer? : Json → Option Int
  | number (.integer n _) => some n
  | _ => none

def isNull : Json → Bool
  | null => true
  | _ => false

/-- A member of an object; other values have none. -/
def get? : Json → String → Option Json
  | object m, key => m.get? key
  | _, _ => none

/-- An object as it is, anything else as the empty object. -/
def asObject : Json → Json
  | object m => object m
  | _ => empty

@[simp] theorem asObject_asObject (j : Json) : j.asObject.asObject = j.asObject := by
  cases j <;> rfl

end Json

mutual

def Json.beq : Json → Json → Bool
  | .null, .null => true
  | .bool a, .bool b => a == b
  | .number a, .number b => a == b
  | .string a, .string b => a == b
  | .array as, .array bs => Json.beqItems as bs
  | .object as, .object bs => Members.beq as bs
  | _, _ => false

def Json.beqItems : List Json → List Json → Bool
  | [], [] => true
  | a :: as, b :: bs => a.beq b && Json.beqItems as bs
  | _, _ => false

def Members.beq : {lower : Option String} → Members lower → Members lower → Bool
  | _, .nil, .nil => true
  | _, .cons k _ v rest, .cons k' _ v' rest' =>
    if h : k = k' then v.beq v' && Members.beq rest (h ▸ rest') else false
  | _, _, _ => false

end

mutual

theorem Json.beq_iff : ∀ a b : Json, a.beq b = true ↔ a = b
  | .array as, b => by cases b <;> simp [Json.beq, Json.beqItems_iff as]
  | .object as, b => by cases b <;> simp [Json.beq, Members.beq_iff as]
  | .null, b => by cases b <;> simp [Json.beq]
  | .bool _, b => by cases b <;> simp [Json.beq]
  | .number _, b => by cases b <;> simp [Json.beq]
  | .string _, b => by cases b <;> simp [Json.beq]

theorem Json.beqItems_iff : ∀ as bs : List Json, Json.beqItems as bs = true ↔ as = bs
  | [], bs => by cases bs <;> simp [Json.beqItems]
  | a :: as, bs => by cases bs <;> simp [Json.beqItems, Json.beq_iff a, Json.beqItems_iff as]

theorem Members.beq_iff : ∀ {lower : Option String} (as bs : Members lower),
    Members.beq as bs = true ↔ as = bs
  | _, .nil, bs => by cases bs <;> simp [Members.beq]
  | _, .cons k _ v rest, bs => by
    cases bs with
    | nil => simp [Members.beq]
    | cons k' _ v' rest' =>
      by_cases h : k = k'
      · subst h
        simp [Members.beq, Json.beq_iff v, Members.beq_iff rest]
      · simp [Members.beq, h]

end

instance : DecidableEq Json := fun a b => decidable_of_iff _ (Json.beq_iff a b)

instance {lower : Option String} : DecidableEq (Members lower) :=
  fun a b => decidable_of_iff _ (Members.beq_iff a b)

end DuplexRpc
