import DuplexRpc.Proofs.Client.Histories
import DuplexRpc.Proofs.Client.Line

/-!
The life of a link: whether the client is closed, its epoch and status, and what is installed. Most
steps leave all of that alone. The others change one part of it, and only a close, an opening or a
pass over a lost link does so, or a connect that is about to open.
-/
namespace DuplexRpc

structure Lifecycle where
  closed : Bool
  epoch : Nat
  status : Status
  installed : Option Generation
  generation : Generation
  openedUnder : Nat
  sink : Option Generation

def Shared.lifecycle (s : Shared) : Lifecycle :=
  ⟨s.closed, s.epoch, s.status, s.link.installed, s.link.generation, s.link.openedUnder,
    s.outbound.sink⟩

/-- What a task does to the life of a link. -/
inductive Role where
  | closing (p : ClosePhase)
  /-- a connect outside its closes and its opening -/
  | connecting
  | opening (epoch : Nat) (p : OpenPhase)
  | passing (generation : Generation) (p : DisconnectPhase)
  | other
  deriving DecidableEq

def Task.role : Task → Role
  | connect (.closing _ p) | connect (.failing p _) | close (some p) | discard (.closing p) =>
    .closing p
  | connect (.opening epoch p) | reconnect epoch (.opening p) => .opening epoch p
  | connect (.done _) => .other
  | connect _ => .connecting
  | receive g (.disconnecting p) => .passing g p
  | _ => .other

/-- The task is about to publish that the link is open, or that it is lost. -/
def Role.isPublishing : Role → Bool
  | opening _ p => p.hasInstalled
  | passing _ p => p = .publish
  | _ => false

/-- What a step of a task with a role does, and the role after it. -/
inductive Lifecycle.Step (l : Lifecycle) : Role → Role → Lifecycle → Prop where
  | still {r r' : Role} (hdetach : r ≠ .closing .detach)
    (hpublishing : r'.isPublishing = true → r.isPublishing = true ∨ l.closed = false) :
    Step l r r' l
  | mark : Step l (.closing .mark) (.closing .bump) { l with closed := true }
  | bump : Step l (.closing .bump) (.closing .detach) { l with epoch := l.epoch + 1 }
  | detach (d : Detached) :
    Step l (.closing .detach) (.closing (.publish d))
      { l with installed := none, generation := l.generation + 1 }
  | close (d : Detached) :
    Step l (.closing (.publish d)) (.closing (.signal d)) { l with status := .closed }
  | vacate {r r' : Role} (hdetach : r ≠ .closing .detach) (hpublishing : r'.isPublishing = false) :
    Step l r r' { l with sink := none }
  | unclose : Step l .connecting .connecting { l with closed := false }
  | connect (epoch : Nat) :
    Step l .connecting (.opening epoch .checkClosed) { l with status := .connecting }
  | install (p : OpenPhase) (hclosed : l.closed = false) :
    Step l (.opening l.epoch .lock) (.opening l.epoch p)
      { l with installed := some (l.generation + 1), generation := l.generation + 1
               openedUnder := l.epoch, sink := some (l.generation + 1) }
  | opened {r : Role} (epoch : Nat) (hpublishing : r.isPublishing = false) :
    Step l (.opening epoch .publish) r { l with status := .opened }
  | lose (old : Generation) (hold : l.installed = some old) :
    Step l (.passing l.generation .detach) (.passing l.generation (.signal old))
      { l with installed := none }
  | lost (g : Generation) :
    Step l (.passing g .publish) (.passing g (.request false)) { l with status := .reconnecting }

namespace Lifecycle.Step

variable {l l' : Lifecycle} {r r' : Role}

theorem same (h : l' = l) (hdetach : r ≠ .closing .detach)
    (hpublishing : r'.isPublishing = true → r.isPublishing = true) : l.Step r r' l' :=
  h ▸ .still hdetach fun hr' => .inl (hpublishing hr')

theorem publishing (h : l.Step r r' l') (hr' : r'.isPublishing = true) :
    r.isPublishing = true ∨ l.closed = false := by
  cases h with
  | still hdetach hpublishing => exact hpublishing hr'
  | vacate hdetach hpublishing | opened epoch hpublishing => cases hpublishing.symm.trans hr'
  | install p hclosed => exact .inr hclosed
  | _ => cases hr'

/-- If only the last generation can be installed, then it stays so. -/
theorem installed_eq (h : l.Step r r' l') (hl : ∀ g, l.installed = some g → g = l.generation)
    {g : Generation} (hg : l'.installed = some g) : g = l'.generation := by
  cases h with
  | detach | lose => cases hg
  | install => exact (Option.some.inj hg).symm
  | _ => exact hl g hg

end Lifecycle.Step

namespace Client

variable {config : Config} {c c' c₁ : Client} {t u : TaskId} {choice : Choice} {m : Move}
  {task task' x : Task}

@[simp] theorem OpenFrame.role_phase (f : OpenFrame) (p : OpenPhase) :
    (f.next (.phase p)).role = .opening f.epoch p := by
  cases f <;> rfl

@[simp] theorem OpenFrame.not_publishing (f : OpenFrame) (result : Except Failure Unit) :
    (f.next (.over result)).role.isPublishing = false := by
  cases f <;> cases result <;> rfl

@[simp] theorem CloseFrame.role_phase (f : CloseFrame) (p : ClosePhase) :
    (f.next (.phase p)).role = .closing p := by
  cases f <;> rfl

@[simp] theorem CloseFrame.not_publishing (f : CloseFrame) (next : Next ClosePhase Unit) :
    (f.next next).role.isPublishing = false := by
  cases f <;> cases next <;> rfl

@[simp] theorem CallFrame.role_next (f : CallFrame) (next : Next CallPhase (Option Outcome)) :
    (f.next next).role = .other := by
  fun_cases CallFrame.next f next <;> rfl

@[simp] theorem lifecycle_request (s : Shared) (t : TaskId) :
    (s.request t).lifecycle = s.lifecycle := by
  unfold Shared.request Shared.lifecycle
  rw [sink_request]

@[simp] theorem lifecycle_leave (s : Shared) (t : TaskId) :
    (s.leave t).lifecycle = s.lifecycle := by
  unfold Shared.leave Shared.lifecycle
  rw [Outbound.sink_leave]

theorem lifecycle_foldl_kill (tasks : List TaskId) (c : Client) :
    (tasks.foldl kill c).shared.lifecycle = c.shared.lifecycle :=
  foldl_kill_induct (P := fun s => s.lifecycle = c.shared.lifecycle)
    (fun s t h => (lifecycle_leave s t).trans h) (fun _ _ h => h) tasks rfl

theorem hasInstalled_of_isEarly {p : OpenPhase} (h : p.isEarly = true) :
    p.hasInstalled = false := by
  cases p <;> first | rfl | cases h

theorem OpenStep.lifecycle (f : OpenFrame) {p : OpenPhase}
    {next : Next OpenPhase (Except Failure Unit)} (h : OpenStep c t f.epoch p c₁ next) :
    c.shared.lifecycle.Step (.opening f.epoch p) (f.next next).role c₁.shared.lifecycle := by
  have hover {p : OpenPhase} (result : Except Failure Unit)
      (hr' : (f.next (.over result)).role.isPublishing = true) :
      (Role.opening f.epoch p).isPublishing = true := by
    cases (f.not_publishing result).symm.trans hr'
  have hdetach (p) : Role.opening f.epoch p ≠ .closing .detach := by simp
  cases h with
  | look hp hp' =>
    rw [f.role_phase]
    exact .same rfl (hdetach _) fun hr' => by cases (hasInstalled_of_isEarly hp').symm.trans hr'
  | fail failure hp => exact .same rfl (hdetach _) (hover _)
  | dialed url =>
    rw [f.role_phase]
    exact .same rfl (hdetach _) fun hr' => by cases hr'
  | ask =>
    rw [f.role_phase]
    exact .same (lifecycle_request ..) (hdetach _) fun hr' => by cases hr'
  | late held => exact .same (lifecycle_leave ..) (hdetach _) (hover _)
  | stale held h => exact .same rfl (hdetach _) (hover _)
  | install held h =>
    obtain ⟨hclosed, hepoch⟩ : c.shared.closed = false ∧ c.shared.epoch = f.epoch := by
      simpa [isStale] using h
    rw [f.role_phase, ← hepoch]
    exact .install _ hclosed
  | failRetired | resetAttempts =>
    rw [f.role_phase]
    exact .same rfl (hdetach _) fun _ => rfl
  | publish => exact .opened f.epoch (f.not_publishing _)

theorem CloseStep.lifecycle (f : CloseFrame) {p : ClosePhase} {next : Next ClosePhase Unit}
    (h : CloseStep c t p c₁ next) :
    c.shared.lifecycle.Step (.closing p) (f.next next).role c₁.shared.lifecycle := by
  have hquiet {r : Role} (next : Next ClosePhase Unit)
      (hr' : (f.next next).role.isPublishing = true) : r.isPublishing = true := by
    cases (f.not_publishing next).symm.trans hr'
  cases h with
  | mark | bump | detach | publish d =>
    rw [f.role_phase]
    constructor
  | take tasks held => exact .vacate nofun (f.not_publishing _)
  | ask tasks => exact .same (lifecycle_request ..) nofun (hquiet _)
  | _ => exact .same rfl nofun (hquiet _)

theorem SendStep.lifecycle {text : String} {p : SendPhase}
    {next : Next SendPhase (Except Failure Unit)} (h : SendStep c t text p c₁ next) :
    c₁.shared.lifecycle = c.shared.lifecycle := by
  cases h with
  | ask => exact lifecycle_request ..
  | _ => rfl

theorem CallStep.lifecycle {spec : CallSpec} {p : CallPhase}
    {next : Next CallPhase (Option Outcome)} (h : CallStep c t spec choice p c₁ next) :
    c₁.shared.lifecycle = c.shared.lifecycle := by
  cases h with
  | send id n h | sent id n h | unsent id n h => exact h.lifecycle
  | dropSending id n h dropped => exact lifecycle_leave ..
  | _ => rfl

theorem DisconnectStep.lifecycle {g : Generation} {p : DisconnectPhase}
    {next : Next DisconnectPhase Unit} (h : DisconnectStep c t g p c₁ next) :
    c.shared.lifecycle.Step (.passing g p) (passNext g next).role c₁.shared.lifecycle := by
  cases h with
  | detach hold hg =>
    subst hg
    exact .lose _ hold
  | unclosed h => exact .still nofun fun _ => .inr h
  | publish => exact .lost g
  | ask closed => exact .same (lifecycle_request ..) nofun nofun
  | clear closed held =>
    -- the slot is emptied, or has been filled by a later opening
    change c.shared.lifecycle.Step _ (.passing g (.fail closed))
      { c.shared.lifecycle with
        sink := if c.shared.outbound.sink = some g then none else c.shared.outbound.sink }
    split
    · exact .vacate nofun rfl
    · exact .same rfl nofun nofun
  | _ => exact .same rfl nofun nofun

theorem DiscardStep.lifecycle {p p' : DiscardPhase} (h : DiscardStep c p c₁ p') :
    c.shared.lifecycle.Step (Task.discard p).role (Task.discard p').role c₁.shared.lifecycle := by
  cases h with
  | @close _ q _ h =>
    cases q with
    | signal d =>
      cases h
      simp only [signalDetached_eq]
      exact .same rfl nofun nofun
    | mark | bump | detach | publish d =>
      cases h
      constructor
    | _ => cases h
  | abort tasks => exact .same (lifecycle_foldl_kill tasks c) nofun nofun
  | _ => exact .same rfl nofun nofun

theorem role_of_isLooping {epoch : Nat} {p : ReconnectPhase} (h : p.isLooping = true) :
    (Task.reconnect epoch p).role = .other := by
  cases p <;> first | rfl | cases h

theorem TaskStep.lifecycle (h : TaskStep c t choice task c₁ task') :
    c.shared.lifecycle.Step task.role task'.role c₁.shared.lifecycle := by
  cases h with
  | opening f h => simpa using h.lifecycle f
  | closing f h => simpa using h.lifecycle f
  | calling f h =>
    rw [f.role_next, f.role_next]
    exact .same h.lifecycle nofun nofun
  | starting f h => cases f <;> cases h <;> exact .same rfl nofun nofun
  | disconnecting g h => exact h.lifecycle
  | @replying g response _ _ next h => cases next <;> exact .same h.lifecycle nofun nofun
  | connect h =>
    cases h with
    | unclose epoch => exact .unclose
    | publish epoch => exact .connect epoch
    | _ => exact .same rfl nofun nofun
  | receive g h =>
    cases h with
    | handled id result => cases id <;> exact .same rfl nofun nofun
    | _ => exact .same rfl nofun nofun
  | heart g h => cases h <;> exact .same rfl nofun nofun
  | reconnect epoch h =>
    cases h with
    | look hp hp' =>
      rw [role_of_isLooping hp, role_of_isLooping hp']
      exact .same rfl nofun nofun
    | leave hp h =>
      rw [role_of_isLooping hp]
      exact .same rfl nofun nofun
    | _ => exact .same rfl nofun nofun
  | discard h => exact h.lifecycle

/-- A move of the user leaves the life of the link alone. -/
theorem lifecycle_of_apply (h : c.apply m = some c') :
    ((∀ t choice, m ≠ .step t choice) ∧ c'.shared.lifecycle = c.shared.lifecycle) ∨
      ∃ t choice x c₁ x', m = .step t choice ∧ c.tasks[t]? = some x ∧
        TaskStep c t choice x c₁ x' ∧ c' = ⟨c₁.shared, c₁.tasks.set t x'⟩ := by
  cases apply_cases h with
  | start request => exact .inl ⟨nofun, rfl⟩
  | register method handler registry => exact .inl ⟨nofun, rfl⟩
  | cancel token => exact .inl ⟨nofun, rfl⟩
  | step ht hstep => exact .inr ⟨_, _, _, _, _, rfl, ht, hstep, rfl⟩

theorem Reachable.installed_eq (run : Reachable config c) {g : Generation}
    (hg : c.shared.link.installed = some g) : g = c.shared.link.generation := by
  induction run generalizing g with
  | fresh => cases hg
  | @move c c' m before happly ih =>
    obtain ⟨-, hlife⟩ | ⟨t, choice, x, c₁, x', -, -, hstep, rfl⟩ := lifecycle_of_apply happly
    · have hg : c'.shared.lifecycle.installed = some g := hg
      rw [hlife] at hg
      exact (ih hg).trans (congrArg Lifecycle.generation hlife).symm
    · exact hstep.lifecycle.installed_eq (fun _ => ih) hg

end Client
end DuplexRpc
