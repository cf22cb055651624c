import DuplexRpc.Failure

/-!
Cancellation tokens. A token and its copies, and the copies of those, share one signal: cancelling
any of them cancels all, for good. A waiter holds the signal itself, so that dropping tokens neither
raises nor loses it.
-/
namespace DuplexRpc

/-- Someone waiting for a signal, and whether the wait has been seen to end. -/
structure Waiter where
  signal : Nat
  finished : Bool
  deriving DecidableEq, Repr

structure Tokens where
  /-- the signals, true once cancelled -/
  signals : List Bool
  /-- the signal of each token, none once the token is dropped -/
  tokens : List (Option Nat)
  waiters : List Waiter
  deriving DecidableEq, Repr

namespace Tokens

inductive Op where
  | create
  | clone (token : Nat)
  | cancel (token : Nat)
  | drop (token : Nat)
  | isCancelled (token : Nat)
  | check (token : Nat)
  | wait (token : Nat)
  | poll (waiter : Nat)
  deriving DecidableEq, Repr

inductive Wait where
  | pending | ready | finished
  deriving DecidableEq, Repr

inductive Answer where
  | none
  | index (n : Nat)
  | flag (cancelled : Bool)
  | checked (failure : Option Failure)
  | polled (wait : Wait)
  deriving DecidableEq

def empty : Tokens := ⟨[], [], []⟩

/-- The signal of a token that is not dropped. -/
def signal? (t : Tokens) (token : Nat) : Option Nat := (t.tokens[token]?).join

def raised (t : Tokens) (signal : Nat) : Bool := t.signals.getD signal false

def isCancelled (t : Tokens) (token : Nat) : Bool := (t.signal? token).any t.raised

/-- The state of every token; none for a dropped one. -/
def flags (t : Tokens) : List (Option Bool) := t.tokens.map fun signal => signal.map t.raised

def check (t : Tokens) (token : Nat) : Option Failure :=
  if t.isCancelled token then some .cancelled else none

def step (t : Tokens) : Op → Tokens × Answer
  | .create =>
    ({ t with signals := t.signals ++ [false], tokens := t.tokens ++ [some t.signals.length] },
      .index t.tokens.length)
  | .clone token =>
    match t.signal? token with
    | some signal =>
      ({ t with tokens := t.tokens ++ [some signal] }, .index t.tokens.length)
    | none => (t, .none)
  | .cancel token =>
    match t.signal? token with
    | some signal => ({ t with signals := t.signals.set signal true }, .none)
    | none => (t, .none)
  | .drop token => ({ t with tokens := t.tokens.set token none }, .none)
  | .isCancelled token => (t, .flag (t.isCancelled token))
  | .check token => (t, .checked (t.check token))
  | .wait token =>
    match t.signal? token with
    | some signal =>
      ({ t with waiters := t.waiters ++ [⟨signal, false⟩] }, .index t.waiters.length)
    | none => (t, .none)
  | .poll waiter =>
    match t.waiters[waiter]? with
    | some w =>
      if w.finished then (t, .polled .finished)
      else if t.raised w.signal then
        ({ t with waiters := t.waiters.set waiter { w with finished := true } }, .polled .ready)
      else (t, .polled .pending)
    | none => (t, .none)

theorem raised_cancel {t : Tokens} {token signal : Nat} (h : t.signal? token = some signal)
    (hs : signal < t.signals.length) (k : Nat) :
    (t.step (.cancel token)).1.raised k = (k == signal || t.raised k) := by
  by_cases hk : k = signal
  · subst hk
    simp [step, h, raised, hs]
  · simp [step, h, raised, hk, List.getD, Ne.symm hk]

def run (t : Tokens) (ops : List Op) : Tokens := ops.foldl (fun t op => (t.step op).1) t

end Tokens
end DuplexRpc
