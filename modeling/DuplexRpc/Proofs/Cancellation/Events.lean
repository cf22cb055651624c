import DuplexRpc.Cancellation
import Mathlib.Logic.Relation

/-!
What has been done with tokens, told by operations and answers alone: which tokens there are, which
were copied from which, what has been cancelled, and who waits for what. Nothing here looks at the
signals that tokens share.
-/
namespace DuplexRpc.Tokens

/-- An operation and its answer. -/
abbrev Event := Op × Answer

def events (t : Tokens) : List Op → List Event
  | [] => []
  | op :: ops => (op, (t.step op).2) :: (t.step op).1.events ops

variable {es : List Event} {e : Event} {i j w : Nat}

/-- The token that an event has made. -/
def made? : Event → Option Nat
  | (.create, .index i) | (.clone _, .index i) => some i
  | _ => none

def IsMade (es : List Event) (i : Nat) : Prop := ∃ e ∈ es, made? e = some i

/-- The token has been made, and not been dropped since. -/
def IsLive (es : List Event) (i : Nat) : Prop :=
  ∃ before e after, es = before ++ e :: after ∧ made? e = some i ∧ ∀ e ∈ after, e.1 ≠ .drop i

def IsCopy (es : List Event) (i j : Nat) : Prop := (.clone i, .index j) ∈ es

/-- The tokens are connected by copying, whatever has become of them and of those between them. -/
def SameGroup (es : List Event) : Nat → Nat → Prop := Relation.EqvGen (IsCopy es)

/-- The token has been cancelled while it was there. -/
def IsCancelledOn (es : List Event) (i : Nat) : Prop :=
  ∃ before e after, es = before ++ e :: after ∧ e.1 = .cancel i ∧ IsLive before i

def GroupCancelled (es : List Event) (i : Nat) : Prop :=
  ∃ c, IsCancelledOn es c ∧ SameGroup es c i

def WaitsFor (es : List Event) (w i : Nat) : Prop := (.wait i, .index w) ∈ es

/-- The waiter has been polled when the group of its token was cancelled already. -/
def IsPolledLate (es : List Event) (w i : Nat) : Prop :=
  ∃ before e after, es = before ++ e :: after ∧ e.1 = .poll w ∧ WaitsFor before w i ∧
    GroupCancelled before i

/-- The operation names a token of the group, or a waiter for one. -/
def Concerns (es : List Event) (i : Nat) : Op → Prop
  | .create => False
  | .clone j | .cancel j | .drop j | .isCancelled j | .check j | .wait j => SameGroup es j i
  | .poll w => ∃ j, WaitsFor es w j ∧ SameGroup es j i

theorem events_append (t : Tokens) (ops more : List Op) :
    t.events (ops ++ more) = t.events ops ++ (t.run ops).events more := by
  induction ops generalizing t with
  | nil => rfl
  | cons op ops ih => exact congrArg _ (ih (t.step op).1)

theorem run_append (t : Tokens) (ops more : List Op) : t.run (ops ++ more) = (t.run ops).run more :=
  List.foldl_append

theorem SameGroup.mono {es es' : List Event} (hsub : es ⊆ es') (h : SameGroup es i j) :
    SameGroup es' i j :=
  Relation.EqvGen.mono (fun _ _ hcopy => hsub hcopy) _ _ h

theorem SameGroup.append (h : SameGroup es i j) (more : List Event) : SameGroup (es ++ more) i j :=
  h.mono (List.subset_append_left ..)

/-- Whatever is the same on both sides of every copy is the same in the whole group. -/
theorem SameGroup.eq_of_copies {α : Type _} {f : Nat → α} (hf : ∀ i j, IsCopy es i j → f i = f j)
    (h : SameGroup es i j) : f i = f j := by
  induction h with
  | rel i j hcopy => exact hf i j hcopy
  | refl i => rfl
  | symm i j _ ih => exact ih.symm
  | trans i j k _ _ ih ih' => exact ih.trans ih'

/-- A place in a list with one more element is an old one or the last. -/
theorem exists_split_concat_iff {α : Type _} {P : List α → α → List α → Prop} {s : List α} {y : α} :
    (∃ before x after, s ++ [y] = before ++ x :: after ∧ P before x after) ↔
      (∃ before x after, s = before ++ x :: after ∧ P before x (after ++ [y])) ∨ P s y [] := by
  constructor
  · rintro ⟨before, x, after, heq, h⟩
    obtain rfl | ⟨after, z, rfl⟩ := List.eq_nil_or_concat after
    · obtain ⟨rfl, hy⟩ := List.append_inj' heq rfl
      cases hy
      exact .inr h
    · rw [List.concat_eq_append, ← List.cons_append, ← List.append_assoc] at heq
      obtain ⟨rfl, hy⟩ := List.append_inj' heq rfl
      cases hy
      exact .inl ⟨before, x, after, rfl, List.concat_eq_append ▸ h⟩
  · rintro (⟨before, x, after, rfl, h⟩ | h)
    · exact ⟨before, x, after ++ [y], by simp, h⟩
    · exact ⟨s, y, [], rfl, h⟩

@[simp] theorem isMade_concat_iff : IsMade (es ++ [e]) i ↔ IsMade es i ∨ made? e = some i := by
  simp [IsMade, or_and_right, exists_or]

theorem isLive_concat_iff :
    IsLive (es ++ [e]) i ↔ IsLive es i ∧ e.1 ≠ .drop i ∨ made? e = some i := by
  unfold IsLive
  rw [exists_split_concat_iff
    (P := fun _ e after => made? e = some i ∧ ∀ e ∈ after, e.1 ≠ .drop i)]
  simp only [List.forall_mem_append, List.forall_mem_singleton, List.not_mem_nil, false_implies,
    implies_true, and_true, ← and_assoc, exists_and_right]

@[simp] theorem isCopy_concat_iff :
    IsCopy (es ++ [e]) i j ↔ IsCopy es i j ∨ e = (.clone i, .index j) := by
  simp [IsCopy, eq_comm (a := e)]

theorem isCancelledOn_concat_iff : IsCancelledOn (es ++ [e]) i ↔
    IsCancelledOn es i ∨ e.1 = .cancel i ∧ IsLive es i :=
  exists_split_concat_iff (P := fun before (e : Event) _ => e.1 = .cancel i ∧ IsLive before i)

@[simp] theorem waitsFor_concat_iff :
    WaitsFor (es ++ [e]) w i ↔ WaitsFor es w i ∨ e = (.wait i, .index w) := by
  simp [WaitsFor, eq_comm (a := e)]

theorem isPolledLate_concat_iff : IsPolledLate (es ++ [e]) w i ↔
    IsPolledLate es w i ∨ e.1 = .poll w ∧ WaitsFor es w i ∧ GroupCancelled es i :=
  exists_split_concat_iff
    (P := fun before (e : Event) _ =>
      e.1 = .poll w ∧ WaitsFor before w i ∧ GroupCancelled before i)

end DuplexRpc.Tokens
