import DuplexRpc.Proofs.Client.Admission
import DuplexRpc.Proofs.Client.AfterClose

/-!
Closes come to their end. A close waits for the outbound slot, for a write and for the tasks of its
link. Whoever stands in the line for the slot leaves it after a write at most, and the tasks of the
link have been told to end. So nothing stands in the way of a close, as long as writes and handlers
end.
-/
namespace DuplexRpc

/-- What comes to a task without its peer and its user: it runs on, a handler or a write ends, or it
sees its signal. -/
def Choice.comes : Choice → Bool
  | .run | .settled | .cancelled | .written none => true
  | _ => false

def SendPhase.remaining : SendPhase → Nat
  | request => 3
  | lock => 2
  | writing _ => 1

def StartPhase.remaining : StartPhase → Nat
  | checkClosed => 3
  | claim => 2
  | readEpoch => 1

def DisconnectPhase.remaining : DisconnectPhase → Nat
  | detach => 10
  | signal _ => 9
  | readClosed => 8
  | publish => 7
  | request _ => 6
  | lock _ => 5
  | fail _ => 4
  | starting p => p.remaining

def CallPhase.remaining : CallPhase → Nat
  | start => 12
  | checkSignal => 11
  | readStatus => 10
  | awaitOpen => 9
  | allocate => 8
  | register _ => 7
  | sending _ _ p => 3 + p.remaining
  | awaitAnswer _ => 3
  | leaving _ _ => 2
  | done _ => 1

def ReceivePhase.remaining : ReceivePhase → Nat
  | handling _ _ => 15
  | replying _ p => 11 + p.remaining
  | idle => 11
  | disconnecting p => p.remaining
  | done => 0

def HeartPhase.remaining : HeartPhase → Nat
  | checkClosed => 15
  | probing p => 2 + p.remaining
  | ticking => 2
  | raise => 1
  | done => 0

/-- For a task of a link that has been told to end. -/
def Task.remaining : Task → Nat
  | receive _ p => p.remaining
  | heart _ p => p.remaining
  | _ => 0

/-- A link has two tasks at most. -/
def ClosePhase.remaining : ClosePhase → Nat
  | mark => 12
  | bump => 11
  | detach => 10
  | publish d => d.tasks.length + 7
  | signal d => d.tasks.length + 6
  | request tasks => tasks.length + 5
  | lock tasks => tasks.length + 4
  | shaking _ tasks => tasks.length + 3
  | joining tasks => tasks.length + 2
  | fail => 1

namespace Client

variable {config : Config} {c c' c₁ : Client} {t u v : TaskId} {choice : Choice}
  {task task' x : Task} {g : Generation}

theorem sendStep_comes (text : String) {p : SendPhase} {stake : Stake}
    (held : (p.stake? stake).isSome = true → c.holds t = true) :
    ∃ choice c₁ next, choice.comes = true ∧ c.sendStep t text choice p = some (c₁, next) ∧
      next.elim SendPhase.remaining 0 < p.remaining := by
  cases p with
  | request => exact ⟨.run, _, _, rfl, rfl, by decide⟩
  | lock =>
    have held : c.holds t = true := held rfl
    cases hsink : c.shared.outbound.sink with
    | none =>
      exact ⟨.run, c.update Shared.release, .over (.error .notConnected), rfl,
        by simp [sendStep, held, hsink], by decide⟩
    | some g =>
      exact ⟨.run, c, .phase (.writing g), rfl, by simp [sendStep, held, hsink],
        by simp [SendPhase.remaining]⟩
  | writing g => exact ⟨.written none, _, _, rfl, rfl, by simp [SendPhase.remaining]⟩

theorem startStep_comes (p : StartPhase) : ∃ c₁ next, c.startStep .run p = some (c₁, next) ∧
    next.elim StartPhase.remaining 0 < p.remaining := by
  cases p with
  | checkClosed =>
    refine ⟨_, _, rfl, ?_⟩
    split <;> decide
  | claim =>
    simp only [startStep]
    split
    · exact ⟨_, _, rfl, by decide⟩
    · exact ⟨_, _, rfl, by decide⟩
  | readEpoch => exact ⟨_, _, rfl, by decide⟩

theorem disconnectStep_comes {p : DisconnectPhase}
    (held : p.stake?.isSome = true → c.holds t = true) : ∃ c₁ next,
      c.disconnectStep t g .run p = some (c₁, next) ∧
        next.elim DisconnectPhase.remaining 0 < p.remaining := by
  cases p with
  | detach =>
    simp only [disconnectStep]
    split
    · split
      · exact ⟨_, _, rfl, by decide⟩
      · exact ⟨_, _, rfl, by simp [DisconnectPhase.remaining]⟩
    · exact ⟨_, _, rfl, by decide⟩
  | signal old => exact ⟨_, _, rfl, by simp [DisconnectPhase.remaining]⟩
  | readClosed =>
    refine ⟨_, _, rfl, ?_⟩
    simp only [Next.elim]
    split <;> decide
  | publish => exact ⟨_, _, rfl, by decide⟩
  | request closed => exact ⟨_, _, rfl, by simp [DisconnectPhase.remaining]⟩
  | lock closed =>
    simp only [disconnectStep, held rfl]
    exact ⟨_, _, rfl, by simp [DisconnectPhase.remaining]⟩
  | fail closed =>
    refine ⟨_, _, rfl, ?_⟩
    cases closed <;> simp [DisconnectPhase.remaining, StartPhase.remaining]
  | starting p =>
    obtain ⟨c₁, next, hstep, hlt⟩ := c.startStep_comes p
    rcases next with p' | r
    · exact ⟨c₁, .phase (.starting p'), by simp [disconnectStep, hstep], hlt⟩
    · exact ⟨c₁, .over r, by simp [disconnectStep, hstep], hlt⟩

theorem ne_dropped_of_comes (h : choice.comes = true) : choice ≠ .dropped := by
  rintro rfl
  cases h

theorem callStep_sending {spec : CallSpec} {id : String} {n : Nat} {q : SendPhase}
    (h : choice ≠ .dropped) : c.callStep t spec choice (.sending id n q) =
      (c.sendStep t (spec.requestText id) choice q).map fun (c, next) =>
        match next with
        | .phase p => (c, .phase (.sending id n p))
        | .over (.ok ()) => (c, .phase (.awaitAnswer n))
        | .over (.error failure) => (c, .phase (.leaving n (some (.error failure)))) := by
  cases choice <;> first | rfl | exact absurd rfl h

theorem heartStep_probing {p : CallPhase} (h : choice ≠ .dropped) :
    c.heartStep t g choice (.probing p) =
      (c.callStep t (.heartbeat c.shared.config g) choice p).map fun (c, next) =>
        match next with
        | .phase p => (c, .probing p)
        | .over (some (.ok _)) => (c, .ticking)
        | .over (some (.error .cancelled)) => (c, .done)
        | .over (some (.error _)) => (c, .raise)
        | .over none => (c, .done) := by
  cases choice <;> first | rfl | exact absurd rfl h

/-- A call whose signal has come goes on, wherever it stands. -/
theorem callStep_comes {spec : CallSpec} {p : CallPhase} (hsignalled : c.signalled spec = true)
    (held : p.stake?.isSome = true → c.holds t = true) (hp : ∀ outcome, p ≠ .done outcome) :
    ∃ choice c₁ next, choice.comes = true ∧ c.callStep t spec choice p = some (c₁, next) ∧
      next.elim CallPhase.remaining 0 < p.remaining := by
  cases p with
  | start =>
    refine ⟨.run, ?_⟩
    simp only [callStep]
    split
    · exact ⟨_, _, rfl, rfl, by decide⟩
    · exact ⟨_, _, rfl, rfl, by decide⟩
  | checkSignal =>
    refine ⟨.run, c, .over (some (.error .cancelled)), rfl, ?_, by decide⟩
    simp [callStep, hsignalled]
  | readStatus =>
    refine ⟨.run, _, _, rfl, rfl, ?_⟩
    cases c.shared.status <;> decide
  | awaitOpen =>
    refine ⟨.cancelled, c, .over (some (.error .cancelled)), rfl, ?_, by decide⟩
    simp [callStep, hsignalled]
  | allocate => exact ⟨.run, _, _, rfl, rfl, by simp [CallPhase.remaining]⟩
  | register id =>
    refine ⟨.run, ?_⟩
    simp only [callStep]
    split
    · exact ⟨_, _, rfl, rfl, by simp [CallPhase.remaining, SendPhase.remaining]⟩
    · exact ⟨_, _, rfl, rfl, by simp [CallPhase.remaining]⟩
  | sending id n q =>
    obtain ⟨choice, c₁, next, hchoice, hstep, hlt⟩ :=
      sendStep_comes (spec.requestText id) held
    refine ⟨choice, c₁, ?_⟩
    rw [callStep_sending (ne_dropped_of_comes hchoice), hstep]
    rcases next with q' | ⟨failure | _⟩
    · exact ⟨_, hchoice, rfl, Nat.add_lt_add_left hlt 3⟩
    · exact ⟨_, hchoice, rfl, Nat.lt_of_lt_of_le (Nat.lt_succ_self 2) (Nat.le_add_right 3 _)⟩
    · exact ⟨_, hchoice, rfl, Nat.lt_add_of_pos_right hlt⟩
  | awaitAnswer n =>
    refine ⟨.cancelled, c, .phase (.leaving n (some (.error .cancelled))), rfl, ?_,
      by simp [CallPhase.remaining]⟩
    simp [callStep, hsignalled]
  | leaving n outcome => exact ⟨.run, _, _, rfl, rfl, by simp [CallPhase.remaining]⟩
  | done outcome => exact absurd rfl (hp outcome)

theorem receiveStep_comes {p : ReceivePhase}
    (hcancelled : c.shared.isCancelled (.generation g) = true)
    (held : (Task.receive g p).stake?.isSome = true → c.holds t = true) (hp : p ≠ .done) :
    ∃ choice c₁ p', choice.comes = true ∧ c.receiveStep t g choice p = some (c₁, p') ∧
      p'.remaining < p.remaining := by
  cases p with
  | idle =>
    refine ⟨.cancelled, c, .disconnecting .detach, rfl, ?_, by decide⟩
    simp [receiveStep, hcancelled]
  | handling id result =>
    refine ⟨.settled, _, _, rfl, rfl, ?_⟩
    cases id <;> simp [ReceivePhase.remaining, SendPhase.remaining]
  | replying response q =>
    obtain ⟨choice, c₁, next, hchoice, hstep, hlt⟩ := sendStep_comes response.wire held
    refine ⟨choice, c₁, ?_⟩
    rw [receiveStep, hstep]
    rcases next with q' | r
    · exact ⟨_, hchoice, rfl, Nat.add_lt_add_left hlt 11⟩
    · exact ⟨_, hchoice, rfl, Nat.add_lt_add_left hlt 11⟩
  | disconnecting q =>
    obtain ⟨c₁, next, hstep, hlt⟩ := disconnectStep_comes (g := g) held
    refine ⟨.run, c₁, ?_⟩
    rw [receiveStep, hstep]
    rcases next with q' | r
    · exact ⟨_, rfl, rfl, hlt⟩
    · exact ⟨_, rfl, rfl, hlt⟩
  | done => exact absurd rfl hp

theorem heartStep_comes {p : HeartPhase}
    (hcancelled : c.shared.isCancelled (.generation g) = true)
    (held : (Task.heart g p).stake?.isSome = true → c.holds t = true) (hp : p ≠ .done)
    (hprobing : ∀ outcome, p ≠ .probing (.done outcome)) :
    ∃ choice c₁ p', choice.comes = true ∧ c.heartStep t g choice p = some (c₁, p') ∧
      p'.remaining < p.remaining := by
  cases p with
  | ticking =>
    refine ⟨.cancelled, c, .done, rfl, ?_, by decide⟩
    simp [heartStep, hcancelled]
  | checkClosed =>
    refine ⟨.run, _, _, rfl, rfl, ?_⟩
    split <;> decide
  | probing q =>
    have hsignalled : c.signalled (.heartbeat c.shared.config g) = true := hcancelled
    obtain ⟨choice, c₁, next, hchoice, hstep, hlt⟩ :=
      callStep_comes hsignalled held fun outcome hq => hprobing outcome (hq ▸ rfl)
    refine ⟨choice, c₁, ?_⟩
    rw [heartStep_probing (ne_dropped_of_comes hchoice), hstep]
    have hpos : 2 < 2 + q.remaining := Nat.lt_add_of_pos_right (Nat.zero_lt_of_lt hlt)
    rcases next with q' | ⟨_ | failure | value⟩
    · exact ⟨_, hchoice, rfl, Nat.add_lt_add_left hlt 2⟩
    · exact ⟨_, hchoice, rfl, Nat.lt_trans Nat.two_pos hpos⟩
    · cases failure <;> exact ⟨_, hchoice, rfl, Nat.lt_trans (by decide) hpos⟩
    · exact ⟨_, hchoice, rfl, hpos⟩
  | raise => exact ⟨.run, _, _, rfl, rfl, by decide⟩
  | done => exact absurd rfl hp

theorem closeStep_comes {p : ClosePhase} (held : p.stake?.isSome = true → c.holds t = true)
    (hjoined : ∀ u tasks, p = .joining (u :: tasks) → c.isDone u = true) :
    ∃ choice c₁ next, choice.comes = true ∧ c.closeStep t choice p = some (c₁, next) ∧
      next.elim ClosePhase.remaining 0 < p.remaining := by
  cases p with
  | mark | bump | signal d | publish d =>
    exact ⟨.run, _, _, rfl, rfl, by simp [ClosePhase.remaining]⟩
  | detach =>
    refine ⟨.run, _, _, rfl, rfl, ?_⟩
    have hle : (tasksOf c.shared.link).length ≤ 2 := List.length_filterMap_le _ _
    simp only [Next.elim, ClosePhase.remaining, detach]
    omega
  | request tasks => exact ⟨.run, _, _, rfl, rfl, by simp [ClosePhase.remaining]⟩
  | lock tasks =>
    have held : c.holds t = true := held rfl
    simp only [closeStep, held]
    refine ⟨.run, _, _, rfl, rfl, ?_⟩
    cases c.shared.outbound.sink <;> simp [ClosePhase.remaining]
  | shaking g tasks =>
    exact ⟨.written none, _, _, rfl, rfl, by simp [ClosePhase.remaining]⟩
  | joining tasks =>
    cases tasks with
    | nil => exact ⟨.run, _, _, rfl, rfl, by simp [ClosePhase.remaining]⟩
    | cons u tasks =>
      refine ⟨.run, c, .phase (.joining tasks), rfl, ?_, by simp [ClosePhase.remaining]⟩
      simp [closeStep, hjoined u tasks rfl]
  | fail => exact ⟨.run, _, _, rfl, rfl, by decide⟩

theorem OpenFrame.taskStep (f : OpenFrame) {p : OpenPhase}
    {next : Next OpenPhase (Except Failure Unit)}
    (h : c.openStep t f.epoch choice p = some (c₁, next)) :
    c.taskStep t choice (f.next (.phase p)) = some (c₁, f.next next) := by
  cases f <;> rcases next with p' | ⟨_ | _⟩ <;> simp only [OpenFrame.epoch] at h <;>
    simp [OpenFrame.next, Client.taskStep, connectStep, reconnectStep, h]

theorem CloseFrame.taskStep (f : CloseFrame) {p : ClosePhase} {next : Next ClosePhase Unit}
    (h : c.closeStep t choice p = some (c₁, next)) :
    c.taskStep t choice (f.next (.phase p)) = some (c₁, f.next next) := by
  cases f <;> cases next <;> simp [CloseFrame.next, Client.taskStep, connectStep, h]

theorem CallFrame.taskStep (f : CallFrame) {p : CallPhase} {next : Next CallPhase (Option Outcome)}
    (hchoice : choice ≠ .dropped)
    (h : c.callStep t (f.spec c.shared.config) choice p = some (c₁, next)) :
    c.taskStep t choice (f.next (.phase p)) = some (c₁, f.next next) := by
  cases f with
  | call spec => cases next <;> simp_all [CallFrame.next, CallFrame.spec, Client.taskStep]
  | heart g =>
    rw [CallFrame.next, Client.taskStep, heartStep_probing hchoice, ← CallFrame.spec, h]
    rcases next with p' | ⟨_ | failure | value⟩
    case over.some.error => cases failure <;> rfl
    all_goals rfl

/-- Where a task stands that has a place in the line. -/
theorem staked_cases (h : x.stake?.isSome = true) :
    (∃ f : OpenFrame, x = f.next (.phase .lock)) ∨
    (∃ (f : CloseFrame) (tasks : List TaskId), x = f.next (.phase (.lock tasks))) ∨
    (∃ (f : CallFrame) (id : String) (n : Nat) (q : SendPhase),
      x = f.next (.phase (.sending id n q)) ∧ q ≠ .request) ∨
    (∃ (g : Generation) (closed : Bool), x = .receive g (.disconnecting (.lock closed))) ∨
    ∃ (g : Generation) (response : Response) (q : SendPhase),
      x = .receive g (.replying response q) ∧ q ≠ .request := by
  have opens {epoch : Nat} {p : OpenPhase} (h : (p.stake? epoch).isSome = true) : p = .lock := by
    cases p <;> first | rfl | cases h
  have closes {p : ClosePhase} (h : p.stake?.isSome = true) : ∃ tasks, p = .lock tasks := by
    cases p <;> first | exact ⟨_, rfl⟩ | cases h
  have sends {stake : Stake} {q : SendPhase} (h : (q.stake? stake).isSome = true) :
      q ≠ .request := by
    rintro rfl
    cases h
  have calls {p : CallPhase} (h : p.stake?.isSome = true) :
      ∃ id n q, p = .sending id n q ∧ q ≠ .request := by
    cases p with
    | sending id n q => exact ⟨id, n, q, rfl, sends h⟩
    | _ => cases h
  revert h
  fun_cases Task.stake? x <;> intro h
  case case1 url p =>
    obtain ⟨tasks, rfl⟩ := closes h
    exact .inr (.inl ⟨.connect url, tasks, rfl⟩)
  case case2 epoch p =>
    obtain rfl := opens h
    exact .inl ⟨.connect epoch, rfl⟩
  case case3 p failure =>
    obtain ⟨tasks, rfl⟩ := closes h
    exact .inr (.inl ⟨.failed failure, tasks, rfl⟩)
  case case4 p =>
    obtain ⟨tasks, rfl⟩ := closes h
    exact .inr (.inl ⟨.close, tasks, rfl⟩)
  case case5 spec p =>
    obtain ⟨id, n, q, rfl, hq⟩ := calls h
    exact .inr (.inr (.inl ⟨.call spec, id, n, q, rfl, hq⟩))
  case case6 g response q => exact .inr (.inr (.inr (.inr ⟨g, response, q, rfl, sends h⟩)))
  case case7 g p =>
    refine .inr (.inr (.inr (.inl ⟨g, ?_⟩)))
    cases p <;> first | exact ⟨_, rfl⟩ | cases h
  case case8 g p =>
    obtain ⟨id, n, q, rfl, hq⟩ := calls h
    exact .inr (.inr (.inl ⟨.heart g, id, n, q, rfl, hq⟩))
  case case9 epoch p =>
    obtain rfl := opens h
    exact .inl ⟨.reconnect epoch, rfl⟩
  case case10 => cases h

/-- Whoever has the slot to send goes off the line with its next step, or begins its write. -/
theorem sendStep_off (text : String) {q : SendPhase} (held : c.holds t = true)
    (hq : q ≠ .request) : ∃ choice c₁ next, choice.comes = true ∧
      c.sendStep t text choice q = some (c₁, next) ∧
        ((∃ r, next = .over r) ∨ q = .lock ∧ ∃ g, next = .phase (.writing g)) := by
  cases q with
  | request => exact absurd rfl hq
  | lock =>
    cases hsink : c.shared.outbound.sink with
    | none =>
      exact ⟨.run, c.update Shared.release, .over (.error .notConnected), rfl,
        by simp [sendStep, held, hsink], .inl ⟨_, rfl⟩⟩
    | some g =>
      exact ⟨.run, c, .phase (.writing g), rfl, by simp [sendStep, held, hsink],
        .inr ⟨rfl, g, rfl⟩⟩
  | writing g => exact ⟨.written none, _, _, rfl, rfl, .inl ⟨_, rfl⟩⟩

theorem openStep_off (epoch : Nat) (held : c.holds t = true) : ∃ c₁ next,
    c.openStep t epoch .run .lock = some (c₁, next) ∧ next.elim (·.stake? epoch) none = none := by
  cases hstale : c.isStale epoch with
  | true =>
    exact ⟨c.update Shared.release, .over (.error .clientClosed),
      by simp [openStep, held, hstale], rfl⟩
  | false =>
    refine ⟨_, _, by simp only [openStep, held, hstale]; rfl, ?_⟩
    cases c.shared.link.installed <;> rfl

theorem closeStep_off (tasks : List TaskId) (held : c.holds t = true) : ∃ c₁ next,
    c.closeStep t .run (.lock tasks) = some (c₁, next) ∧
      next.elim ClosePhase.stake? none = none := by
  simp only [closeStep, held]
  refine ⟨_, _, rfl, ?_⟩
  cases c.shared.outbound.sink <;> rfl

theorem callStep_off {spec : CallSpec} {id : String} {n : Nat} {q : SendPhase}
    (held : c.holds t = true) (hq : q ≠ .request) : ∃ choice c₁ p, choice.comes = true ∧
      c.callStep t spec choice (.sending id n q) = some (c₁, .phase p) ∧
        (p.stake? = none ∨ q = .lock ∧ ∃ g, p = .sending id n (.writing g)) := by
  obtain ⟨choice, c₁, next, hchoice, hsend, hnext⟩ := sendStep_off (spec.requestText id) held hq
  refine ⟨choice, c₁, ?_⟩
  rw [callStep_sending (ne_dropped_of_comes hchoice), hsend]
  obtain ⟨_ | _, rfl⟩ | ⟨rfl, g, rfl⟩ := hnext
  · exact ⟨_, hchoice, rfl, .inl rfl⟩
  · exact ⟨_, hchoice, rfl, .inl rfl⟩
  · exact ⟨_, hchoice, rfl, .inr ⟨rfl, g, rfl⟩⟩

theorem disconnectStep_off {closed : Bool} (held : c.holds t = true) : ∃ c₁,
    c.disconnectStep t g .run (.lock closed) = some (c₁, .phase (.fail closed)) := by
  simp [disconnectStep, held]

theorem exists_step_off (held : c.holds t = true) (hx : x.stake?.isSome = true) :
    ∃ choice c₁ x', choice.comes = true ∧ c.taskStep t choice x = some (c₁, x') ∧
      (x'.stake? = none ∨ x.isWriting = false ∧ x'.isWriting = true ∧ x'.stake?.isSome = true) := by
  obtain ⟨f, rfl⟩ | ⟨f, tasks, rfl⟩ | ⟨f, id, n, q, rfl, hq⟩ | ⟨g, closed, rfl⟩ |
    ⟨g, response, q, rfl, hq⟩ := staked_cases hx
  · obtain ⟨c₁, next, hopen, hnext⟩ := openStep_off f.epoch held
    exact ⟨.run, c₁, _, rfl, f.taskStep hopen, .inl (by simpa using hnext)⟩
  · obtain ⟨c₁, next, hclose, hnext⟩ := closeStep_off tasks held
    exact ⟨.run, c₁, _, rfl, f.taskStep hclose, .inl (by simpa using hnext)⟩
  · obtain ⟨choice, c₁, p, hchoice, hcall, hp⟩ := callStep_off held hq
    have hstep := f.taskStep (ne_dropped_of_comes hchoice) hcall
    refine ⟨choice, c₁, _, hchoice, hstep, ?_⟩
    obtain hp | ⟨rfl, g, rfl⟩ := hp
    · exact .inl (by simpa using hp)
    · refine .inr ⟨f.isWriting_next _, f.isWriting_next _, ?_⟩
      rw [f.stake?_next]
      rfl
  · obtain ⟨c₁, hpass⟩ := disconnectStep_off held
    exact ⟨.run, c₁, _, rfl, by rw [taskStep, receiveStep, hpass]; rfl, .inl rfl⟩
  · obtain ⟨choice, c₁, next, hchoice, hsend, hnext⟩ := sendStep_off response.wire held hq
    obtain ⟨r, rfl⟩ | ⟨rfl, g', rfl⟩ := hnext
    · exact ⟨choice, c₁, _, hchoice, by rw [taskStep, receiveStep, hsend]; rfl, .inl rfl⟩
    · exact ⟨choice, c₁, _, hchoice, by rw [taskStep, receiveStep, hsend]; rfl,
        .inr ⟨rfl, rfl, rfl⟩⟩

/-- The client comes to another state by steps of its tasks. -/
inductive Advances (c : Client) : Client → Prop where
  | here : Advances c c
  | step {t : TaskId} {choice : Choice} {c₁ c₂ : Client} (before : Advances c c₁)
    (hchoice : choice.comes = true) (h : c₁.step t choice = some c₂) : Advances c c₂

theorem Advances.trans {c₂ : Client} (h : c.Advances c₁) (h' : c₁.Advances c₂) :
    c.Advances c₂ := by
  induction h' with
  | here => exact h
  | step before hchoice h ih => exact .step ih hchoice h

theorem Advances.reachable (h : c.Advances c') (run : Reachable config c) :
    Reachable config c' := by
  induction h with
  | here => exact run
  | @step t choice c₁ c₂ before hchoice h ih => exact .move (.step t choice) ih h

/-- A step of a task begins to discard nothing. -/
theorem IsKept.step (hkept : c.IsKept) (h : c.step t choice = some c') : c'.IsKept := by
  intro u p hu
  have happly : c.apply (.step t choice) = some c' := h
  cases origin_of_apply happly hu with
  | started request heq => cases heq
  | spawned hnew => cases hnew.1
  | stayed _ hu => exact hkept u p hu
  | @stepped _ y _ _ hu hstep =>
    have hkind := hstep.kind
    cases y with
    | discard q => exact hkept u q hu
    | _ => cases hkind
  | aborted hserving => cases hserving

theorem Advances.isCancelled (h : c.Advances c') {signal : Signal}
    (hsignal : c.shared.isCancelled signal = true) : c'.shared.isCancelled signal = true := by
  induction h with
  | here => exact hsignal
  | @step t choice c₁ c₂ before hchoice h ih =>
    have happly : c₁.apply (.step t choice) = some c₂ := h
    simp only [Shared.isCancelled, List.contains_iff_mem] at ih ⊢
    exact cancelled_subset_of_apply happly ih

theorem Advances.kept (h : c.Advances c') (hkept : c.IsKept) : c'.IsKept := by
  induction h with
  | here => exact hkept
  | step before hchoice h ih => exact ih.step h

/-- A step that takes its task off the line shortens the line. -/
theorem Lined.length_lt (hlined : c.Lined) (hkept : c.IsKept) (ht : c.tasks[t]? = some x)
    (held : c.holds t = true) (hx : x.stake?.isSome = true)
    (h : c.taskStep t choice x = some (c₁, task')) (hoff : task'.stake? = none) :
    (stakes ⟨c₁.shared, c₁.tasks.set t task'⟩).length < c.stakes.length := by
  obtain ⟨-, hpassage⟩ := hlined.step ht (hkept.not_discard ht) (taskStep_cases h)
  obtain ⟨k, hk⟩ := Option.isSome_iff_exists.1 hx
  rw [hk, hoff] at hpassage
  simp [hpassage.2 held]

theorem getElem?_of_step (hkept : c.IsKept) (h : c.step t choice = some c') (hut : u ≠ t)
    (hu : c.tasks[u]? = some x) : c'.tasks[u]? = some x := by
  obtain ⟨y, c₁, y', ht, hstep, rfl⟩ := step_eq_some_iff.1 h
  exact getElem?_other ((taskStep_cases hstep).grows (hkept.not_discard ht)) hu hut

/-- Whoever has the slot can leave the line, without any step of the others. -/
theorem exists_advances_off (run : Reachable config c) (hkept : c.IsKept)
    (ht : c.tasks[t]? = some x) (held : c.holds t = true) (hx : x.stake?.isSome = true) :
    ∃ c', c.Advances c' ∧ c'.stakes.length < c.stakes.length ∧
      ∀ (u : TaskId) y, u ≠ t → c.tasks[u]? = some y → c'.tasks[u]? = some y := by
  have hlined := run.lined hkept
  obtain ⟨choice, c₁, x', hchoice, hstep, hoff | ⟨-, hwriting, hx'⟩⟩ := exists_step_off held hx
  · have h := step_eq_some_iff.2 ⟨x, c₁, x', ht, hstep, rfl⟩
    exact ⟨_, .step .here hchoice h, hlined.length_lt hkept ht held hx hstep hoff,
      fun u y hut hu => getElem?_of_step hkept h hut hu⟩
  · -- the write that has begun ends
    have h := step_eq_some_iff.2 ⟨x, c₁, x', ht, hstep, rfl⟩
    obtain ⟨hlined', hpassage⟩ :=
      hlined.step ht (hkept.not_discard ht) (taskStep_cases hstep)
    have ht' := (taskStep_cases hstep).getElem?_set_self ht
    have hlength : (stakes ⟨c₁.shared, c₁.tasks.set t x'⟩).length = c.stakes.length := by
      obtain ⟨k, hk⟩ := Option.isSome_iff_exists.1 hx
      obtain ⟨k', hk'⟩ := Option.isSome_iff_exists.1 hx'
      rw [hk, hk'] at hpassage
      exact congrArg _ hpassage
    have held' := hlined'.writing t x' ht' hwriting
    obtain ⟨choice', c₂, x'', hchoice', hstep', hoff | ⟨hlock, -⟩⟩ := exists_step_off held' hx'
    · have h' := step_eq_some_iff.2 ⟨x', c₂, x'', ht', hstep', rfl⟩
      refine ⟨_, .step (.step .here hchoice h) hchoice' h', ?_, fun u y hut hu => ?_⟩
      · exact hlength ▸ hlined'.length_lt (hkept.step h) ht' held' hx' hstep' hoff
      · exact getElem?_of_step (hkept.step h) h' hut (getElem?_of_step hkept h hut hu)
    · cases hlock.symm.trans hwriting

/-- Whoever stands in the line comes to have the slot, once those before it have left. -/
theorem exists_advances_holds (run : Reachable config c) (hkept : c.IsKept)
    (ht : c.tasks[t]? = some x) (hx : x.stake?.isSome = true) :
    ∃ c', c.Advances c' ∧ c'.holds t = true ∧
      ∀ (u : TaskId) y, c.tasks[u]? = some y → u = t ∨ y.stake? = none →
        c'.tasks[u]? = some y := by
  induction hn : c.stakes.length using Nat.strong_induction_on generalizing c with
  | _ n ih =>
  by_cases held : c.holds t = true
  · exact ⟨c, .here, held, fun u y hu _ => hu⟩
  have hplaced := (run.lined hkept).placed
  have hmem : t ∈ c.shared.outbound.line := by
    rw [hplaced.staked, stake?_of_getElem? ht]
    exact hx
  -- the line is not empty, so somebody else has the slot
  obtain ⟨v, hv⟩ : ∃ v, c.shared.outbound.holder = some v := by
    cases hholder : c.shared.outbound.holder with
    | some v => exact ⟨v, rfl⟩
    | none => simp [Outbound.line, hholder, hplaced.free hholder] at hmem
  have hheld : c.holds v = true := holds_iff.2 hv
  have hvt : v ≠ t := by
    rintro rfl
    exact held hheld
  have hstake : (c.stake? v).isSome = true :=
    (hplaced.staked v).1 (by simp [Outbound.line, hv])
  obtain ⟨y, hy, hystake⟩ : ∃ y, c.tasks[v]? = some y ∧ y.stake?.isSome = true := by
    cases hy : c.tasks[v]? with
    | none => simp [stake?, hy] at hstake
    | some y => exact ⟨y, rfl, by simpa [stake?, hy] using hstake⟩
  obtain ⟨c₁, hadvances, hlt, hothers⟩ := exists_advances_off run hkept hy hheld hystake
  obtain ⟨c₂, hadvances', hholds, hkeep⟩ := ih _ (hn ▸ hlt) (hadvances.reachable run)
    (hadvances.kept hkept) (hothers t x (Ne.symm hvt) ht) rfl
  refine ⟨c₂, hadvances.trans hadvances', hholds, fun u z hu hz => hkeep u z ?_ hz⟩
  refine hothers u z ?_ hu
  rintro rfl
  obtain rfl | hz := hz
  · exact hvt rfl
  · cases hu.symm.trans hy
    simp [hz] at hystake

theorem CallStep.not_done {spec : CallSpec} {p : CallPhase} {outcome : Option Outcome} :
    ¬CallStep c t spec choice p c₁ (.phase (.done outcome)) := by
  intro h
  cases h with
  | look _ hp' => cases hp'

theorem heartStep_not_probed {p : HeartPhase} {outcome : Option Outcome} :
    c.heartStep t g choice p ≠ some (c₁, .probing (.done outcome)) := by
  intro h
  cases p with
  | probing q =>
    have hne : choice ≠ .dropped := by
      rintro rfl
      cases h
    rw [heartStep_probing hne] at h
    obtain ⟨⟨c₂, next⟩, hcall, heq⟩ := Option.map_eq_some_iff.1 h
    rcases next with q' | ⟨_ | failure | value⟩
    case phase =>
      cases heq
      exact (callStep_cases hcall).not_done
    case over.some.error => cases failure <;> cases heq
    all_goals cases heq
  | done => cases h
  | ticking =>
    cases choice with
    | elapsed => cases h
    | cancelled =>
      simp only [heartStep] at h
      split at h <;> cases h
    | _ => cases h
  | checkClosed =>
    cases choice with
    | run =>
      simp only [heartStep, Option.some.injEq, Prod.mk.injEq] at h
      obtain ⟨-, h⟩ := h
      split at h <;> cases h
    | _ => cases h
  | raise => cases choice <;> cases h

/-- A heart whose probe is over has gone on. -/
theorem Reachable.not_probed (run : Reachable config c) {outcome : Option Outcome} :
    c.tasks[t]? ≠ some (.heart g (.probing (.done outcome))) := by
  intro ht
  induction run with
  | fresh => cases ht
  | @move c c' m before h ih =>
    cases origin_of_apply h ht with
    | started request _ hx => cases request <;> cases hx
    | spawned hnew => cases hnew.1
    | stayed _ ht => exact ih ht
    | aborted hserving hdone => cases hdone
    | stepped heq hu hstep hshared =>
      subst heq
      obtain ⟨x, c₁, x', hx, hraw, rfl⟩ := step_eq_some_iff.1 h
      cases ((taskStep_cases hraw).getElem?_set_self hx).symm.trans ht
      have hkind := (taskStep_cases hraw).kind
      cases x with
      | heart g' p =>
        cases hkind
        obtain ⟨⟨c₂, p'⟩, hheart, heq⟩ := Option.map_eq_some_iff.1 hraw
        cases heq
        exact heartStep_not_probed hheart
      | _ => cases hkind

/-- The task serves the generation. -/
def serves (g : Generation) (x : Task) : Prop := x.kind = .receive g ∨ x.kind = .heart g

theorem exists_step_serving (run : Reachable config c) (ht : c.tasks[t]? = some x)
    (hserves : serves g x) (hcancelled : c.shared.isCancelled (.generation g) = true)
    (held : x.stake?.isSome = true → c.holds t = true) (hx : x.isDone = false) :
    ∃ choice c₁ x', choice.comes = true ∧ c.taskStep t choice x = some (c₁, x') ∧
      x'.remaining < x.remaining := by
  cases x with
  | receive g' p =>
    obtain rfl : g' = g := by
      obtain h | h := hserves <;> cases h
      rfl
    obtain ⟨choice, c₁, p', hchoice, hstep, hlt⟩ :=
      receiveStep_comes hcancelled held (by rintro rfl; cases hx)
    exact ⟨choice, c₁, .receive g' p', hchoice, by simp [taskStep, hstep], hlt⟩
  | heart g' p =>
    obtain rfl : g' = g := by
      obtain h | h := hserves <;> cases h
      rfl
    obtain ⟨choice, c₁, p', hchoice, hstep, hlt⟩ :=
      heartStep_comes hcancelled held (by rintro rfl; cases hx) fun outcome hp =>
        run.not_probed (hp ▸ ht)
    exact ⟨choice, c₁, .heart g' p', hchoice, by simp [taskStep, hstep], hlt⟩
  | _ => obtain h | h := hserves <;> cases h

/-- A task of a link that has been told to end comes to its end. -/
theorem exists_advances_done (run : Reachable config c) (hkept : c.IsKept)
    (ht : c.tasks[t]? = some x) (hserves : serves g x)
    (hcancelled : c.shared.isCancelled (.generation g) = true) :
    ∃ c', c.Advances c' ∧ c'.isDone t = true ∧ ∀ (u : TaskId) y, c.tasks[u]? = some y →
      u ≠ t → y.stake? = none → c'.tasks[u]? = some y := by
  induction hn : x.remaining using Nat.strong_induction_on generalizing c x with
  | _ n ih =>
  by_cases hx : x.isDone = true
  · exact ⟨c, .here, by simp [isDone, ht, hx], fun u y hu _ _ => hu⟩
  -- first it gets the slot, if it waits for it
  obtain ⟨c₁, hadvances, held, hkeep⟩ : ∃ c₁, c.Advances c₁ ∧
      (x.stake?.isSome = true → c₁.holds t = true) ∧
      ∀ (u : TaskId) y, c.tasks[u]? = some y → u = t ∨ y.stake? = none →
        c₁.tasks[u]? = some y := by
    by_cases hstake : x.stake?.isSome = true
    · obtain ⟨c₁, hadvances, held, hkeep⟩ := exists_advances_holds run hkept ht hstake
      exact ⟨c₁, hadvances, fun _ => held, hkeep⟩
    · exact ⟨c, .here, fun h => absurd h hstake, fun u y hu _ => hu⟩
  have ht₁ := hkeep t x ht (.inl rfl)
  have run₁ := hadvances.reachable run
  have hkept₁ := hadvances.kept hkept
  obtain ⟨choice, c₂, x', hchoice, hstep, hlt⟩ := exists_step_serving run₁ ht₁ hserves
    (hadvances.isCancelled hcancelled) held (by simpa using hx)
  have h := step_eq_some_iff.2 ⟨x, c₂, x', ht₁, hstep, rfl⟩
  have hnext : c.Advances ⟨c₂.shared, c₂.tasks.set t x'⟩ := .step hadvances hchoice h
  have hserves' : serves g x' := by
    rwa [serves, (taskStep_cases hstep).kind]
  obtain ⟨c₃, hadvances', hdone, hkeep'⟩ := ih _ (hn ▸ hlt) (hnext.reachable run)
    (hnext.kept hkept) ((taskStep_cases hstep).getElem?_set_self ht₁) hserves'
    (hnext.isCancelled hcancelled) rfl
  refine ⟨c₃, hnext.trans hadvances', hdone, fun u y hu hut hy => hkeep' u y ?_ hut hy⟩
  exact getElem?_of_step hkept₁ h hut (hkeep u y hu (.inr hy))

/-- These tasks serve the generation that is installed, if any. -/
def Staffed (c : Client) (installed : Option Generation) (tasks : List TaskId) : Prop :=
  ∀ u ∈ tasks, ∃ g x, installed = some g ∧ c.tasks[u]? = some x ∧ serves g x

/-- These tasks serve generations that have been told to end. -/
def Told (c : Client) (tasks : List TaskId) : Prop :=
  ∀ u ∈ tasks, ∃ g x, c.shared.isCancelled (.generation g) = true ∧ c.tasks[u]? = some x ∧
    serves g x

/-- A close has taken these tasks out of the link, or waits for them. -/
def Awaits (c : Client) : ClosePhase → Prop
  | .publish d | .signal d => c.Staffed d.installed d.tasks
  | .request tasks | .lock tasks | .shaking _ tasks | .joining tasks => c.Told tasks
  | _ => True

/-- The tasks of the link serve it, and a close waits for such tasks only. -/
structure Accounted (c : Client) : Prop where
  link : c.Staffed c.shared.link.installed (tasksOf c.shared.link)
  closes : ∀ (t : TaskId) x p, c.tasks[t]? = some x → x.role = .closing p → c.Awaits p

theorem exists_task_of_apply {m : Move} (h : c.apply m = some c') (ht : c.tasks[t]? = some x) :
    ∃ x', c'.tasks[t]? = some x' ∧ x'.kind = x.kind := by
  have hbecomes := becomes_of_apply h t
  rw [ht] at hbecomes
  generalize c'.tasks[t]? = y at hbecomes
  cases hbecomes with
  | kept => exact ⟨x, rfl, rfl⟩
  | stepped _ hstep => exact ⟨_, rfl, hstep.kind⟩
  | aborted _ hkind => exact ⟨_, rfl, hkind⟩

section Later

variable {installed : Option Generation} {tasks : List TaskId}
  (hkinds : ∀ (u : TaskId) x, c.tasks[u]? = some x → ∃ x', c'.tasks[u]? = some x' ∧
    x'.kind = x.kind)

include hkinds

theorem Staffed.later (h : c.Staffed installed tasks) : c'.Staffed installed tasks := by
  intro u hu
  obtain ⟨g, x, hg, hx, hserves⟩ := h u hu
  obtain ⟨x', hx', hkind⟩ := hkinds u x hx
  exact ⟨g, x', hg, hx', by rwa [serves, hkind]⟩

theorem Told.later (h : c.Told tasks) (hcancelled : c.shared.cancelled ⊆ c'.shared.cancelled) :
    c'.Told tasks := by
  intro u hu
  obtain ⟨g, x, hg, hx, hserves⟩ := h u hu
  obtain ⟨x', hx', hkind⟩ := hkinds u x hx
  refine ⟨g, x', ?_, hx', by rwa [serves, hkind]⟩
  simp only [Shared.isCancelled, List.contains_iff_mem] at hg ⊢
  exact hcancelled hg

theorem Awaits.later {p : ClosePhase} (h : c.Awaits p)
    (hcancelled : c.shared.cancelled ⊆ c'.shared.cancelled) : c'.Awaits p := by
  cases p with
  | publish d | signal d => exact Staffed.later hkinds h
  | request tasks | lock tasks | shaking g tasks | joining tasks =>
    exact Told.later hkinds h hcancelled
  | _ => trivial

end Later

/-- What a step does to the tasks of the link. -/
theorem TaskStep.crew (h : TaskStep c t choice task c₁ task') (hd : task.isDiscard = false) :
    (c₁.shared.link.installed = c.shared.link.installed ∧
      tasksOf c₁.shared.link = tasksOf c.shared.link) ∨
    tasksOf c₁.shared.link = [] ∨
    ∃ g, c₁.shared.link.installed = some g ∧
      tasksOf c₁.shared.link = [c.tasks.length, c.tasks.length + 1] ∧
      c₁.tasks = c.tasks ++ [.receive g .idle, .heart g .ticking] := by
  cases h with
  | opening f h =>
    cases h with
    | install => exact .inr (.inr ⟨_, rfl, rfl, rfl⟩)
    | _ => exact .inl ⟨rfl, rfl⟩
  | closing f h =>
    cases h with
    | detach => exact .inr (.inl rfl)
    | _ => exact .inl ⟨rfl, rfl⟩
  | calling f h =>
    cases h with
    | send id n h | sent id n h | unsent id n h => cases h <;> exact .inl ⟨rfl, rfl⟩
    | _ => exact .inl ⟨rfl, rfl⟩
  | starting f h => cases h <;> exact .inl ⟨rfl, rfl⟩
  | disconnecting g h =>
    cases h with
    | detach => exact .inr (.inl rfl)
    | _ => exact .inl ⟨rfl, rfl⟩
  | replying g response h => cases h <;> exact .inl ⟨rfl, rfl⟩
  | connect h => cases h <;> exact .inl ⟨rfl, rfl⟩
  | receive g h => cases h <;> exact .inl ⟨rfl, rfl⟩
  | heart g h => cases h <;> exact .inl ⟨rfl, rfl⟩
  | reconnect epoch h => cases h <;> exact .inl ⟨rfl, rfl⟩
  | discard h => cases hd

/-- A task comes to close by its own steps, or stands at the beginning of a close. -/
theorem TaskStep.closes (h : TaskStep c t choice task c₁ task') (hd : task.isDiscard = false)
    {p' : ClosePhase} (hp' : task'.role = .closing p') : p' = .mark ∨
      ∃ p, task.role = .closing p ∧ CloseStep c t p c₁ (.phase p') := by
  cases h with
  | @closing f _ p next h =>
    rcases next with q | r
    · rw [f.role_phase] at hp'
      cases hp'
      exact .inr ⟨p, f.role_phase p, h⟩
    · cases f <;> cases hp'
  | @opening f _ p next h =>
    cases f <;> rcases next with q | ⟨_ | _⟩ <;> cases hp'
    exact .inl rfl
  | calling f h => simp at hp'
  | @starting f _ p next h => cases f <;> cases next <;> cases hp'
  | @disconnecting g _ p next h => cases next <;> cases hp'
  | @replying g response _ p next h => cases next <;> cases hp'
  | connect h =>
    cases h with
    | accepted text url =>
      cases hp'
      exact .inl rfl
    | _ => cases hp'
  | receive g h =>
    cases h with
    | handled id result => cases id <;> cases hp'
    | _ => cases hp'
  | heart g h => cases h <;> cases hp'
  | reconnect epoch h =>
    cases h with
    | look _ hlooping => cases (role_of_isLooping hlooping).symm.trans hp'
    | _ => cases hp'
  | discard h => cases hd

/-- A close waits for those it has taken out of the link, once it has told them to end. -/
theorem CloseStep.awaits {p p' : ClosePhase} (h : CloseStep c t p c₁ (.phase p'))
    (hlink : c.Staffed c.shared.link.installed (tasksOf c.shared.link)) (hp : c.Awaits p) :
    c₁.Awaits p' := by
  cases h with
  | mark | bump | joined => trivial
  | detach => exact hlink
  | publish d => exact hp
  | signal d =>
    intro u hu
    obtain ⟨g, x, hg, hx, hserves⟩ := hp u hu
    refine ⟨g, x, ?_, hx, hserves⟩
    simp [update, Shared.isCancelled, endMarks, hg]
  | take tasks held => cases c.shared.outbound.sink <;> exact hp
  | join task tasks h => exact fun u hu => hp u (.tail _ hu)
  | _ => exact hp

theorem Reachable.accounted (run : Reachable config c) (hkept : c.IsKept) : c.Accounted := by
  induction run with
  | fresh =>
    refine ⟨fun u hu => ?_, fun t x p ht => ?_⟩
    · cases hu
    · cases ht
  | @move c c' m before h ih =>
    have hkept₀ := hkept.before h
    obtain ⟨hlink, hcloses⟩ := ih hkept₀
    have hkinds (u : TaskId) (x : Task) (hx : c.tasks[u]? = some x) := exists_task_of_apply h hx
    have hwaits {t : TaskId} {x : Task} {p : ClosePhase} (ht : c.tasks[t]? = some x)
        (hp : x.role = .closing p) : c'.Awaits p :=
      (hcloses t x p ht hp).later hkinds (cancelled_subset_of_apply h)
    have hstays := hlink.later hkinds
    cases apply_cases h with
    | start request =>
      refine ⟨hstays, fun t x p ht hp => ?_⟩
      obtain ht | rfl := cases_spawn ht
      · exact hwaits ht hp
      · cases request <;> cases hp <;> trivial
    | register method handler registry => exact ⟨hstays, fun t x p ht hp => hwaits ht hp⟩
    | cancel token => exact ⟨hstays, fun t x p ht hp => hwaits ht hp⟩
    | @step t choice task task' c₁ ht hstep =>
      have hd := hkept₀.not_discard ht
      refine ⟨?_, fun u x p hu hp => ?_⟩
      · obtain ⟨hinstalled, htasks⟩ | htasks | ⟨g, hg, htasks, hc₁⟩ := hstep.crew hd
        · simp only [hinstalled, htasks]
          exact hstays
        · simp only [htasks]
          exact nofun
        · -- the two that have just begun
          intro u hu
          have hlt := (List.getElem?_eq_some_iff.1 ht).1
          simp only [htasks, List.mem_cons, List.not_mem_nil, or_false] at hu
          obtain rfl | rfl := hu
          · refine ⟨g, .receive g .idle, hg, ?_, .inl rfl⟩
            rw [List.getElem?_set_ne (Nat.ne_of_lt hlt), hc₁, List.getElem?_append_right le_rfl,
              Nat.sub_self]
            rfl
          · refine ⟨g, .heart g .ticking, hg, ?_, .inr rfl⟩
            rw [List.getElem?_set_ne (Nat.ne_of_lt (Nat.lt_succ_of_lt hlt)), hc₁,
              List.getElem?_append_right (Nat.le_add_right _ 1), Nat.add_sub_cancel_left]
            rfl
      · obtain ⟨rfl, rfl⟩ | ⟨-, hu⟩ | ⟨-, -, hnew, -⟩ := (hstep.grows hd).cases_task hu
        · obtain rfl | ⟨q, hq, hclose⟩ := hstep.closes hd hp
          · trivial
          · refine (hclose.awaits hlink (hcloses u task q ht hq)).later (fun v y hv => ?_)
              (List.Subset.refl _)
            exact hkinds v y (hclose.tasks ▸ hv)
        · exact hwaits hu hp
        · unfold Task.isNew at hnew
          split at hnew <;> first | cases hp | cases hnew

/-- Nothing stands in the way of the next step of a close, once the others have gone on. -/
theorem exists_advances_unhindered (run : Reachable config c) (hkept : c.IsKept) (f : CloseFrame)
    {p : ClosePhase} (ht : c.tasks[t]? = some (f.next (.phase p))) :
    ∃ c', c.Advances c' ∧ c'.tasks[t]? = some (f.next (.phase p)) ∧
      (p.stake?.isSome = true → c'.holds t = true) ∧
      ∀ u tasks, p = .joining (u :: tasks) → c'.isDone u = true := by
  have hstake : (f.next (.phase p)).stake? = p.stake? := by simp
  cases p with
  | lock tasks =>
    obtain ⟨c', hadvances, held, hkeep⟩ :=
      exists_advances_holds run hkept ht (hstake ▸ Option.isSome_some)
    exact ⟨c', hadvances, hkeep t _ ht (.inl rfl), fun _ => held, fun u tasks h => by cases h⟩
  | joining tasks =>
    cases tasks with
    | nil => exact ⟨c, .here, ht, nofun, fun u tasks h => by cases h⟩
    | cons u tasks =>
      obtain ⟨g, x, hcancelled, hu, hserves⟩ :=
        (run.accounted hkept).closes t _ _ ht (f.role_phase _) u (.head _)
      obtain ⟨c', hadvances, hdone, hkeep⟩ := exists_advances_done run hkept hu hserves hcancelled
      have htu : t ≠ u := by
        rintro rfl
        cases ht.symm.trans hu
        cases f <;> obtain h | h := hserves <;> cases h
      refine ⟨c', hadvances, hkeep t _ ht htu hstake, nofun, fun v tasks h => ?_⟩
      cases h
      exact hdone
  | _ => exact ⟨c, .here, ht, nofun, fun u tasks h => by cases h⟩

/-- A close comes to fail what still waits, which is the last thing it does. -/
theorem exists_advances_fail (run : Reachable config c) (hkept : c.IsKept) (f : CloseFrame)
    {p : ClosePhase} (ht : c.tasks[t]? = some (f.next (.phase p))) :
    ∃ c', c.Advances c' ∧ c'.tasks[t]? = some (f.next (.phase .fail)) := by
  induction hn : p.remaining using Nat.strong_induction_on generalizing c p with
  | _ n ih =>
  by_cases hp : p = .fail
  · exact ⟨c, .here, hp ▸ ht⟩
  obtain ⟨c₁, hadvances, ht₁, held, hjoined⟩ := exists_advances_unhindered run hkept f ht
  obtain ⟨choice, c₂, next, hchoice, hclose, hlt⟩ := closeStep_comes held hjoined
  have hstep := f.taskStep hclose
  have hnext : c.Advances ⟨c₂.shared, c₂.tasks.set t (f.next next)⟩ :=
    .step hadvances hchoice (step_eq_some_iff.2 ⟨_, c₂, _, ht₁, hstep, rfl⟩)
  have ht₂ := (taskStep_cases hstep).getElem?_set_self ht₁
  rcases next with p' | r
  · obtain ⟨c₃, hadvances', ht₃⟩ := ih _ (hn ▸ hlt) (hnext.reachable run) (hnext.kept hkept) ht₂ rfl
    exact ⟨c₃, hnext.trans hadvances', ht₃⟩
  · cases closeStep_cases hclose
    exact absurd rfl hp

end Client
end DuplexRpc
