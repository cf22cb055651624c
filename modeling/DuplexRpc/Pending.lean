import DuplexRpc.Failure

/-!
Calls that wait for an answer. A registration is one call's place: a slot for the outcome, a
receiver for it, and a guard that clears the table when the call gives up. The table maps ids to the
registrations that are still open. A guard clears whatever stands under its id, so where ids are
used again it can take the entry of a later registration.
-/
namespace DuplexRpc

abbrev Outcome := Except Failure Json

instance : DecidableEq Outcome
  | .ok a, .ok b => decidable_of_iff (a = b) (by simp)
  | .error a, .error b => decidable_of_iff (a = b) (by simp)
  | .ok _, .error _ => .isFalse (by simp)
  | .error _, .ok _ => .isFalse (by simp)

inductive Slot where
  /-- the table may still deliver -/
  | waiting
  | answered (outcome : Outcome)
  /-- nothing will come any more, or the outcome has been taken -/
  | closed
  /-- the receiver is gone -/
  | dropped
  deriving DecidableEq

namespace Slot

def deliver (outcome : Outcome) : Slot → Slot
  | waiting => answered outcome
  | slot => slot

/-- The table forgets the slot. -/
def abandon : Slot → Slot
  | waiting => closed
  | slot => slot

def take : Slot → Slot
  | answered _ => closed
  | slot => slot

end Slot

structure Registration where
  id : String
  /-- the guard has not been dropped -/
  guarded : Bool
  slot : Slot
  deriving DecidableEq

structure PendingTable where
  /-- open ids and the numbers of their registrations -/
  entries : List (String × Nat)
  registrations : List Registration
  deriving DecidableEq

namespace PendingTable

inductive Op where
  | register (id : String)
  | resolve (id : String) (outcome : Outcome)
  | failAll (failure : Failure)
  | remove (id : String)
  | contains (id : String)
  | dropGuard (registration : Nat)
  | dropReceiver (registration : Nat)
  | poll (registration : Nat)
  deriving DecidableEq

inductive Answer where
  | none
  | registered (registration : Nat)
  | refused (failure : Failure)
  | flag (b : Bool)
  | count (n : Nat)
  | polled (slot : Slot)
  deriving DecidableEq

def empty : PendingTable := ⟨[], []⟩

def size (t : PendingTable) : Nat := t.entries.length

def isEmpty (t : PendingTable) : Bool := t.entries.isEmpty

def contains (t : PendingTable) (id : String) : Bool := t.entries.any (·.1 == id)

/-- The number of the registration that is open under an id. -/
def find? (t : PendingTable) (id : String) : Option Nat := t.entries.lookup id

theorem contains_eq_isSome (t : PendingTable) (id : String) :
    t.contains id = (t.find? id).isSome := by
  unfold contains find?
  induction t.entries with
  | nil => rfl
  | cons e es ih =>
    obtain ⟨k, n⟩ := e
    by_cases h : id = k
    · simp [h]
    · simp [List.lookup_cons, beq_eq_false_iff_ne.2 h, beq_eq_false_iff_ne.2 (Ne.symm h), ih]

/-- The open ids in ascending order. -/
def ids (t : PendingTable) : List String := (t.entries.map (·.1)).mergeSort (· ≤ ·)

def slot? (t : PendingTable) (registration : Nat) : Option Slot :=
  (t.registrations[registration]?).map (·.slot)

def updateSlot (t : PendingTable) (registration : Nat) (f : Slot → Slot) : PendingTable :=
  { t with
    registrations := t.registrations.modify registration fun r => { r with slot := f r.slot } }

@[simp] theorem slot?_updateSlot (t : PendingTable) (n k : Nat) (f : Slot → Slot) :
    (t.updateSlot n f).slot? k = if n = k then (t.slot? k).map f else t.slot? k := by
  by_cases h : n = k <;> simp [updateSlot, slot?, h, Function.comp_def]

def duplicate (id : String) : Failure := .other ("pending request already exists for id " ++ id)

def register (t : PendingTable) (id : String) : Except Failure (Nat × PendingTable) :=
  if t.contains id then .error (duplicate id)
  else
    let n := t.registrations.length
    .ok (n, ⟨(id, n) :: t.entries, t.registrations ++ [⟨id, true, .waiting⟩]⟩)

theorem register_eq_error_iff {t : PendingTable} {id : String} {failure : Failure} :
    t.register id = .error failure ↔ t.contains id = true ∧ failure = duplicate id := by
  by_cases h : t.contains id = true
  · simp [register, h, eq_comm]
  · simp [register, h]

theorem find?_register {t t' : PendingTable} {id : String} {n : Nat}
    (h : t.register id = .ok (n, t')) (k : String) :
    t'.find? k = if k = id then some n else t.find? k := by
  unfold register at h
  split at h
  · cases h
  · cases h
    by_cases hk : k = id
    · simp [find?, hk]
    · simp [find?, List.lookup_cons, hk, beq_eq_false_iff_ne.2 hk]

/-- Takes the entry of an id out of the table and tells its slot. -/
def close (t : PendingTable) (id : String) (f : Slot → Slot) : Bool × PendingTable :=
  match t.find? id with
  | some n =>
    (true, { t.updateSlot n f with entries := t.entries.filter (·.1 != id) })
  | none => (false, t)

theorem lookup_filter_ne (entries : List (String × Nat)) (id k : String) :
    (entries.filter (·.1 != id)).lookup k = if k = id then none else entries.lookup k := by
  induction entries with
  | nil => simp
  | cons e es ih =>
    obtain ⟨i, n⟩ := e
    by_cases hi : i = id
    · subst hi
      by_cases hk : k = i
      · simpa [hk] using ih
      · simpa [List.lookup_cons, beq_eq_false_iff_ne.2 hk, hk] using ih
    · by_cases hk : k = i
      · subst hk
        simp [hi]
      · simp [hi, List.lookup_cons, beq_eq_false_iff_ne.2 hk, ih]

/-- After a close nothing is open under its id, and all else is as before. -/
@[simp] theorem find?_close (t : PendingTable) (id : String) (f : Slot → Slot) (k : String) :
    (t.close id f).2.find? k = if k = id then none else t.find? k := by
  unfold close
  split
  · exact lookup_filter_ne ..
  · next h =>
    by_cases hk : k = id
    · simp [hk, h]
    · simp [hk]

/-- Delivers an outcome; false if nothing waits under the id. -/
def resolve (t : PendingTable) (id : String) (outcome : Outcome) : Bool × PendingTable :=
  t.close id (·.deliver outcome)

def remove (t : PendingTable) (id : String) : Bool × PendingTable := t.close id (·.abandon)

/-- Fails every open registration; gives their number. -/
def failAll (t : PendingTable) (failure : Failure) : Nat × PendingTable :=
  (t.entries.length,
    { t.entries.foldl (fun t (_, n) => t.updateSlot n (·.deliver (.error failure))) t with
      entries := [] })

def dropGuard (t : PendingTable) (registration : Nat) : PendingTable :=
  match t.registrations[registration]? with
  | some r =>
    if r.guarded then
      let t := (t.remove r.id).2
      { t with registrations := t.registrations.modify registration ({ · with guarded := false }) }
    else t
  | none => t

def dropReceiver (t : PendingTable) (registration : Nat) : PendingTable :=
  t.updateSlot registration fun _ => .dropped

/-- Looks into a slot and takes the outcome if there is one. -/
def poll (t : PendingTable) (registration : Nat) : Option Slot × PendingTable :=
  (t.slot? registration, t.updateSlot registration (·.take))

def step (t : PendingTable) : Op → PendingTable × Answer
  | .register id =>
    match t.register id with
    | .ok (n, t) => (t, .registered n)
    | .error failure => (t, .refused failure)
  | .resolve id outcome => let (b, t) := t.resolve id outcome; (t, .flag b)
  | .failAll failure => let (n, t) := t.failAll failure; (t, .count n)
  | .remove id => let (b, t) := t.remove id; (t, .flag b)
  | .contains id => (t, .flag (t.contains id))
  | .dropGuard n => (t.dropGuard n, .none)
  | .dropReceiver n => (t.dropReceiver n, .none)
  | .poll n => let (slot, t) := t.poll n; (t, slot.elim .none .polled)

def run (t : PendingTable) (ops : List Op) : PendingTable :=
  ops.foldl (fun t op => (t.step op).1) t

def describe (t : PendingTable) : String :=
  "PendingCalls \x7b len: " ++ toString t.size ++ " \x7d"

end PendingTable
end DuplexRpc
