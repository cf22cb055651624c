import DuplexRpc.Proofs.Client.Turns

/-!
Status, mark and link. Between turns they agree: the client is closed exactly if its status says so,
a closed or reconnecting client has no link, and an open one has one. Each task breaks this only
where it keeps its turn.
-/
namespace DuplexRpc

structure Shared.Agrees (s : Shared) : Prop where
  closed : s.closed = true ↔ s.status = .closed
  unlinked : s.status = .closed ∨ s.status = .reconnecting → s.link.installed = none
  linked : s.status = .opened → s.link.installed.isSome = true

def OpenPhase.Agrees (s : Shared) : OpenPhase → Prop
  | failRetired | resetAttempts | publish => s.closed = false ∧ s.link.installed.isSome = true
  | _ => s.Agrees

def ClosePhase.Agrees (s : Shared) : ClosePhase → Prop
  | bump | detach => s.closed = true
  | publish _ => s.closed = true ∧ s.link.installed = none
  | _ => s.Agrees

def DisconnectPhase.Agrees (s : Shared) : DisconnectPhase → Prop
  | signal _ | readClosed =>
    s.link.installed = none ∧ (s.closed = true ↔ s.status = .closed)
  | publish => s.link.installed = none ∧ s.closed = false
  | _ => s.Agrees

/-- From its admission to its first wait a call finds the client open. -/
def CallPhase.Agrees (s : Shared) : CallPhase → Prop
  | allocate | register _ | sending _ _ .request => s.Agrees ∧ s.status = .opened
  | _ => s.Agrees

def ConnectPhase.Agrees (s : Shared) : ConnectPhase → Prop
  | closing _ p | failing p _ => p.Agrees s
  | publish _ => s.closed = false
  | opening _ p => p.Agrees s
  | _ => s.Agrees

def Task.Agrees (s : Shared) : Task → Prop
  | connect p => p.Agrees s
  | close (some p) => p.Agrees s
  | call _ p => p.Agrees s
  | receive _ (.disconnecting p) => p.Agrees s
  | heart _ (.probing p) => p.Agrees s
  | reconnect _ (.opening p) => p.Agrees s
  | _ => s.Agrees

namespace Client

variable {config : Config} {c c' c₁ : Client} {t u : TaskId} {choice : Choice}
  {turn : Option TaskId} {task task' x : Task}

/-- A resting task leaves everything in agreement. -/
theorem agrees_of_rests (h : rests x = true) (s : Shared) : x.Agrees s ↔ s.Agrees := by
  cases x with
  | connect p =>
    cases p with
    | closing url p | failing p failure => cases p <;> first | exact .rfl | cases h
    | opening epoch p => cases p <;> first | exact .rfl | cases h
    | _ => first | exact .rfl | cases h
  | close p =>
    cases p with
    | none => exact .rfl
    | some p => cases p <;> first | exact .rfl | cases h
  | call spec p =>
    cases p with
    | sending id n p => cases p <;> first | exact .rfl | cases h
    | _ => first | exact .rfl | cases h
  | receive g p =>
    cases p with
    | disconnecting p => cases p <;> first | exact .rfl | cases h
    | _ => exact .rfl
  | heart g p =>
    cases p with
    | probing p =>
      cases p with
      | sending id n p => cases p <;> first | exact .rfl | cases h
      | _ => first | exact .rfl | cases h
    | _ => exact .rfl
  | reconnect epoch p =>
    cases p with
    | opening p => cases p <;> first | exact .rfl | cases h
    | _ => exact .rfl
  | discard p => exact .rfl

variable {s : Shared}

@[simp] theorem OpenFrame.agrees_next (f : OpenFrame)
    (next : Next OpenPhase (Except Failure Unit)) :
    (f.next next).Agrees s ↔ next.elim (·.Agrees s) s.Agrees := by
  cases f <;> rcases next with p | ⟨_ | _⟩ <;> exact .rfl

@[simp] theorem CloseFrame.agrees_next (f : CloseFrame) (next : Next ClosePhase Unit) :
    (f.next next).Agrees s ↔ next.elim (·.Agrees s) s.Agrees := by
  cases f <;> cases next <;> exact .rfl

@[simp] theorem CallFrame.agrees_next (f : CallFrame) (next : Next CallPhase (Option Outcome)) :
    (f.next next).Agrees s ↔ next.elim (·.Agrees s) s.Agrees := by
  fun_cases CallFrame.next f next <;> exact .rfl

@[simp] theorem StartFrame.agrees_next (f : StartFrame) (next : Next StartPhase Unit) :
    (f.next next).Agrees s ↔ s.Agrees := by
  cases f <;> cases next <;> exact .rfl

@[simp] theorem agrees_passNext (g : Generation) (next : Next DisconnectPhase Unit) :
    (passNext g next).Agrees s ↔ next.elim (·.Agrees s) s.Agrees := by
  cases next <;> exact .rfl

@[simp] theorem agrees_replyNext (g : Generation) (response : Response)
    (next : Next SendPhase (Except Failure Unit)) :
    (replyNext g response next).Agrees s ↔ s.Agrees := by
  cases next <;> exact .rfl

theorem agrees_of_isEarly {p : OpenPhase} (h : p.isEarly = true) : p.Agrees s ↔ s.Agrees := by
  cases p <;> first | exact .rfl | cases h

theorem agrees_of_isLooping {epoch : Nat} {p : ReconnectPhase} (h : p.isLooping = true) :
    (Task.reconnect epoch p).Agrees s ↔ s.Agrees := by
  cases p <;> first | exact .rfl | cases h

theorem agrees_of_isOutside {p : CallPhase} (h : p.isOutside = true) : p.Agrees s ↔ s.Agrees := by
  cases p <;> first | exact .rfl | cases h

theorem OpenStep.agrees {epoch : Nat} {p : OpenPhase}
    {next : Next OpenPhase (Except Failure Unit)} (h : OpenStep c t epoch p c' next)
    (hp : p.Agrees c.shared) : next.elim (·.Agrees c'.shared) c'.shared.Agrees := by
  cases h with
  | look hearly hearly' => exact (agrees_of_isEarly hearly').2 ((agrees_of_isEarly hearly).1 hp)
  | fail failure hearly => exact (agrees_of_isEarly hearly).1 hp
  | dialed url => exact hp
  | ask | late held | stale held h => exact ⟨hp.closed, hp.unlinked, hp.linked⟩
  | install held h =>
    have hclosed : c.shared.closed = false := (Bool.or_eq_false_iff.1 h).1
    cases c.shared.link.installed <;> exact ⟨hclosed, rfl⟩
  | failRetired | resetAttempts => exact hp
  | publish =>
    exact ⟨by simp [update, hp.1], by simp [update], fun _ => hp.2⟩

theorem CloseStep.agrees {p : ClosePhase} {next : Next ClosePhase Unit}
    (h : CloseStep c t p c' next) (hp : p.Agrees c.shared) :
    next.elim (·.Agrees c'.shared) c'.shared.Agrees := by
  cases h with
  | mark => exact rfl
  | bump => exact hp
  | detach => exact ⟨hp, rfl⟩
  | publish d => exact ⟨by simp [update, hp.1], fun _ => hp.2, by simp [update]⟩
  | take tasks held =>
    have hagrees : (c.update fun s =>
        { s with outbound := { s.outbound with sink := none } }.release).shared.Agrees :=
      ⟨hp.closed, hp.unlinked, hp.linked⟩
    cases c.shared.outbound.sink <;> exact hagrees
  | _ => exact ⟨hp.closed, hp.unlinked, hp.linked⟩

theorem SendStep.agrees {text : String} {p : SendPhase}
    {next : Next SendPhase (Except Failure Unit)} (h : SendStep c t text p c' next)
    (hs : c.shared.Agrees) : c'.shared.Agrees := by
  cases h <;> exact ⟨hs.closed, hs.unlinked, hs.linked⟩

theorem agrees_of_call {p : CallPhase} (h : p.Agrees s) : s.Agrees := by
  cases p with
  | allocate => exact h.1
  | register id => exact h.1
  | sending id n p => cases p <;> first | exact h.1 | exact h
  | _ => exact h

theorem CallStep.agrees {spec : CallSpec} {p : CallPhase} {next : Next CallPhase (Option Outcome)}
    (h : CallStep c t spec choice p c' next) (hp : p.Agrees c.shared) :
    next.elim (·.Agrees c'.shared) c'.shared.Agrees := by
  cases h with
  | look hout hout' => exact (agrees_of_isOutside hout').2 ((agrees_of_isOutside hout).1 hp)
  | turnedAway hout => exact (agrees_of_isOutside hout).1 hp
  | enter hout h => exact ⟨(agrees_of_isOutside hout).1 hp, h⟩
  | allocate => exact ⟨⟨hp.1.closed, hp.1.unlinked, hp.1.linked⟩, hp.2⟩
  | register h => exact ⟨⟨hp.1.closed, hp.1.unlinked, hp.1.linked⟩, hp.2⟩
  | refuse id failure => exact hp.1
  | send id n h =>
    have hs := h.agrees (agrees_of_call hp)
    cases h <;> exact hs
  | sent id n h | unsent id n h => exact h.agrees (agrees_of_call hp)
  | _ =>
    have hs := agrees_of_call hp
    exact ⟨hs.closed, hs.unlinked, hs.linked⟩

theorem StartStep.agrees {p : StartPhase} {next : Next StartPhase Unit} (h : StartStep c p c' next)
    (hs : c.shared.Agrees) : c'.shared.Agrees := by
  cases h <;> exact ⟨hs.closed, hs.unlinked, hs.linked⟩

theorem DisconnectStep.agrees {g : Generation} {p : DisconnectPhase}
    {next : Next DisconnectPhase Unit} (h : DisconnectStep c t g p c' next)
    (hp : p.Agrees c.shared) : next.elim (·.Agrees c'.shared) c'.shared.Agrees := by
  cases h with
  | detach hold hg => exact ⟨rfl, hp.closed⟩
  | signal old => exact hp
  | closed h =>
    have hstatus := hp.2.1 h
    exact ⟨hp.2, fun _ => hp.1, fun hopened => by simp [hstatus] at hopened⟩
  | unclosed h => exact ⟨hp.1, h⟩
  | publish => exact ⟨by simp [update, hp.2], fun _ => hp.1, by simp [update]⟩
  | _ => exact ⟨hp.closed, hp.unlinked, hp.linked⟩

theorem ConnectStep.agrees {p p' : ConnectPhase} (h : ConnectStep c p c' p')
    (hp : p.Agrees c.shared) : p'.Agrees c'.shared := by
  cases h with
  | unclose epoch => exact rfl
  | publish epoch =>
    have hclosed : c.shared.closed = false := hp
    exact ⟨by simp [update, hclosed], by simp [update], by simp [update]⟩
  | _ => exact ⟨hp.closed, hp.unlinked, hp.linked⟩

theorem TaskStep.agrees (h : TaskStep c t choice task c₁ task') (hd : task.isDiscard = false)
    (hp : task.Agrees c.shared) : task'.Agrees c₁.shared := by
  cases h with
  | opening f h => simpa using h.agrees (by simpa using hp)
  | closing f h => simpa using h.agrees (by simpa using hp)
  | calling f h => simpa using h.agrees (by simpa using hp)
  | starting f h => simpa using h.agrees (by simpa using hp)
  | disconnecting g h => simpa using h.agrees hp
  | replying g response h => simpa using h.agrees hp
  | connect h => exact h.agrees hp
  | receive g h =>
    cases h with
    | handled id result => cases id <;> exact hp
    | _ => exact ⟨hp.closed, hp.unlinked, hp.linked⟩
  | heart g h => cases h <;> exact ⟨hp.closed, hp.unlinked, hp.linked⟩
  | reconnect epoch h =>
    cases h with
    | look hp₀ hp₁ => exact (agrees_of_isLooping hp₁).2 ((agrees_of_isLooping hp₀).1 hp)
    | leave hp₀ h => exact (agrees_of_isLooping hp₀).1 hp
    | _ => exact ⟨hp.closed, hp.unlinked, hp.linked⟩
  | discard h => cases hd

/-- The agreement as an assertion about cooperative runs. -/
def agreement : Assertion := ⟨fun c => c.shared.Agrees, fun _ x c => x.Agrees c.shared⟩

theorem resting_agreement : agreement.Resting := fun _ hrests => agrees_of_rests hrests _

theorem stable_agreement (config : Config) : agreement.Stable config fun _ _ => True where
  fresh := ⟨by simp [fresh, Shared.fresh], fun _ => rfl, by simp [fresh, Shared.fresh]⟩
  resting := resting_agreement
  outer _ h _ hm hs := by
    cases apply_cases h with
    | step ht hstep => exact absurd rfl (hm _ _)
    | _ => exact ⟨hs.closed, hs.unlinked, hs.linked⟩
  step _ hkept _ ht h hx := h.agrees (hkept.not_discard ht) hx

theorem Cooperative.agrees (run : Cooperative config turn c) (hkept : c.IsKept) :
    agreement.Holds turn c :=
  (stable_agreement config).holds run.guided hkept

end Client
end DuplexRpc
