import DuplexRpc.Proofs.Client.Histories
import DuplexRpc.Proofs.Client.Turns

/-!
Attempts to open a link. The own steps of an attempt are told apart from what other tasks do
meanwhile. Up to the one step that installs a link they change nothing but the place at the outbound
lock, and behind that step an attempt cannot fail any more.
-/
namespace DuplexRpc

/-- The subprotocol that the peer has echoed to a dial. -/
def Choice.echoes : Choice → List (Option String)
  | upgraded subprotocol => [subprotocol]
  | _ => []

namespace OpenPhase

/-- The attempt has installed its link. -/
def isInstalled : OpenPhase → Bool
  | failRetired | resetAttempts | publish => true
  | _ => false

/-- What the peer has echoed to an attempt that stands at a phase. -/
def Heard (echoes : List (Option String)) : OpenPhase → Prop
  | checkClosed | checkEpoch | readEndpoint | dialing _ => echoes = []
  | refusing => True
  | _ => echoes = [some "holon-rpc"]

end OpenPhase

namespace Client

/-- The link, the sink and the tasks of one generation. -/
structure HasLinkOf (c : Client) (g : Generation) : Prop where
  generation : c.shared.link.generation = g
  installed : c.shared.link.installed = some g
  sink : c.shared.outbound.sink = some g
  receiver : ∃ r, c.shared.link.receiver = some r ∧ c.tasks[r]? = some (.receive g .idle)
  heart : ∃ h, c.shared.link.heart = some h ∧ c.tasks[h]? = some (.heart g .ticking)

end Client

/-- Nothing is different but who has the outbound lock or waits for it. -/
structure Shared.Relocked (s s' : Shared) : Prop where
  rest : s' = { s with outbound := s'.outbound }
  sink : s'.outbound.sink = s.outbound.sink

namespace Shared.Relocked

theorem refl (s : Shared) : s.Relocked s := ⟨rfl, rfl⟩

theorem request (s : Shared) (t : TaskId) : s.Relocked (s.request t) := by
  refine ⟨rfl, ?_⟩
  simp only [Shared.request, Outbound.request]
  split <;> rfl

theorem release (s : Shared) : s.Relocked s.release := ⟨rfl, rfl⟩

theorem leave (s : Shared) (t : TaskId) : s.Relocked (s.leave t) := by
  refine ⟨rfl, ?_⟩
  simp only [Shared.leave, Outbound.leave]
  split <;> rfl

end Shared.Relocked

/-- A step that a task takes in a run. -/
structure OwnStep where
  before : Client
  choice : Choice
  after : Client

namespace OwnStep

/-- The step changes nothing but who has the outbound lock or waits for it, and where the task
is. -/
structure IsQuiet (t : TaskId) (s : OwnStep) : Prop where
  shared : s.before.shared.Relocked s.after.shared
  tasks : ∃ task, s.after.tasks = s.before.tasks.set t task

/-- The step installs all parts of the next generation, while the client is open under the epoch. -/
structure Installs (t : TaskId) (epoch : Nat) (g : Generation) (s : OwnStep) : Prop where
  current : s.before.shared.closed = false ∧ s.before.shared.epoch = epoch
  next : g = s.before.shared.link.generation + 1
  link : s.after.HasLinkOf g
  tasks : ∃ task, s.after.tasks =
    (s.before.tasks ++ [Task.receive g .idle, Task.heart g .ticking]).set t task
  calls : s.after.shared.pending = s.before.shared.pending
  status : s.after.shared.status = s.before.shared.status
  attempts : s.after.shared.attempts = s.before.shared.attempts

/-- The step leaves the link, the outbound slot and the other tasks alone. -/
structure Follows (t : TaskId) (s : OwnStep) : Prop where
  shared : s.after.shared = { s.before.shared with
    pending := s.after.shared.pending
    attempts := s.after.shared.attempts
    status := s.after.shared.status }
  tasks : ∃ task, s.after.tasks = s.before.tasks.set t task

end OwnStep

namespace Client

variable {c c' c₁ c₂ : Client} {t : TaskId} {choice : Choice} {m : Move} {ms : List Move}
  {f : OpenFrame} {p : OpenPhase} {next : Next OpenPhase (Except Failure Unit)} {epoch : Nat}

theorem OpenFrame.eq_phase_of_next {p : OpenPhase} (h : f.next next = f.next (.phase p)) :
    next = .phase p := by
  cases f <;> rcases next with q | ⟨_ | _⟩ <;> cases h <;> rfl

theorem OpenFrame.eq_over_of_next (h : f.next next = f.next (.over (.ok ()))) :
    next = .over (.ok ()) := by
  cases f <;> rcases next with q | ⟨_ | _⟩ <;> cases h <;> rfl

theorem OpenFrame.eq_error_of_next {failure : Failure}
    (h : f.next next = f.next (.over (.error failure))) :
    ∃ failure, next = .over (.error failure) := by
  cases f <;> rcases next with q | ⟨_ | _⟩ <;> cases h <;> exact ⟨_, rfl⟩

@[simp] theorem OpenFrame.isServing_next : (f.next next).isServing = false := by
  cases f <;> rcases next with q | ⟨_ | _⟩ <;> rfl

/-- Behind the installing an attempt does not wait. -/
theorem OpenFrame.not_rests_next (f : OpenFrame) (hp : p.isInstalled = true) :
    rests (f.next (.phase p)) = false := by
  cases f <;> cases p <;> first | rfl | cases hp

theorem step_opening (ht : c.tasks[t]? = some (f.next (.phase p)))
    (h : c.step t choice = some c') :
    ∃ c₁ next, c.openStep t f.epoch choice p = some (c₁, next) ∧
      c' = ⟨c₁.shared, c₁.tasks.set t (f.next next)⟩ ∧ c'.tasks[t]? = some (f.next next) := by
  obtain ⟨task, c₁, task', htask, hstep, rfl⟩ := step_eq_some_iff.1 h
  cases ht.symm.trans htask
  have hlt : t < c₁.tasks.length := Nat.lt_of_lt_of_le (List.getElem?_eq_some_iff.1 ht).1
    (taskStep_evolves hstep).length
  cases f <;>
  · obtain ⟨⟨c₂, p'⟩, hphase, heq⟩ := Option.map_eq_some_iff.1 hstep
    cases heq
    obtain ⟨⟨c₃, next⟩, hopen, heq⟩ := Option.map_eq_some_iff.1 hphase
    rcases next with q | ⟨_ | _⟩ <;> cases heq <;>
      exact ⟨_, _, hopen, rfl, List.getElem?_set_self hlt⟩

/-- A step before the link is installed: it does nothing but at the lock, and gets no further than
what the peer has echoed allows; or it installs the link. -/
theorem openStep_uninstalled (h : c.openStep t epoch choice p = some (c₁, next))
    (hp : p.isInstalled = false) :
    (c.shared.Relocked c₁.shared ∧ c₁.tasks = c.tasks ∧
      ((∃ failure, next = .over (.error failure)) ∨ ∃ p', next = .phase p' ∧
        p'.isInstalled = false ∧ ∀ echoes, p.Heard echoes → p'.Heard (echoes ++ choice.echoes))) ∨
    (p = .lock ∧ choice = .run ∧ c.isStale epoch = false ∧
      c₁ = (c.install epoch).update Shared.release ∧
      ∃ p', next = .phase p' ∧ p'.isInstalled = true) := by
  revert h
  fun_cases openStep c t epoch choice p
  all_goals
    intro h
    cases h
  case case2 | case5 | case7 =>
    exact .inl ⟨.refl _, rfl, .inr ⟨_, rfl, rfl, fun echoes h => (List.append_nil echoes).trans h⟩⟩
  case case12 =>
    refine .inl ⟨.refl _, rfl, .inr ⟨_, rfl, rfl, fun echoes h => ?_⟩⟩
    obtain rfl : echoes = [] := h
    rfl
  case case13 => exact .inl ⟨.refl _, rfl, .inr ⟨_, rfl, rfl, fun _ _ => trivial⟩⟩
  case case19 =>
    refine .inl ⟨.request _ t, rfl, .inr ⟨_, rfl, rfl, fun echoes h => ?_⟩⟩
    exact (List.append_nil echoes).trans h
  case case22 => exact .inl ⟨.release _, rfl, .inl ⟨_, rfl⟩⟩
  case case23 hheld hstale next =>
    refine .inr ⟨rfl, rfl, by simpa using hstale, rfl, next, rfl, ?_⟩
    dsimp only [next]
    split <;> rfl
  case case25 => exact .inl ⟨.leave _ t, rfl, .inl ⟨_, rfl⟩⟩
  all_goals first
    | exact .inl ⟨.refl _, rfl, .inl ⟨_, rfl⟩⟩
    | cases hp

/-- A step behind the installing: it leaves the link and the slot alone, and it cannot fail. -/
theorem openStep_installed (h : c.openStep t epoch choice p = some (c₁, next))
    (hp : p.isInstalled = true) :
    c₁.shared = { c.shared with
      pending := c₁.shared.pending, attempts := c₁.shared.attempts, status := c₁.shared.status } ∧
    c₁.tasks = c.tasks ∧ choice.echoes = [] ∧
    ((∃ p', next = .phase p' ∧ p'.isInstalled = true) ∨
      next = .over (.ok ()) ∧ c₁.shared.status = .opened) := by
  cases p with
  | failRetired | resetAttempts =>
    cases choice with
    | run =>
      cases h
      exact ⟨rfl, rfl, rfl, .inl ⟨_, rfl, rfl⟩⟩
    | _ => cases h
  | publish =>
    cases choice with
    | run =>
      cases h
      exact ⟨rfl, rfl, rfl, .inr ⟨rfl, rfl⟩⟩
    | _ => cases h
  | _ => cases hp

/-- What an installing leaves behind. -/
theorem installs_of_install (ht : t < c.tasks.length) (hstale : c.isStale epoch = false)
    (choice : Choice) (task : Task) :
    OwnStep.Installs t epoch (c.shared.link.generation + 1)
      ⟨c, choice, ⟨((c.install epoch).update Shared.release).shared,
        ((c.install epoch).update Shared.release).tasks.set t task⟩⟩ := by
  simp only [isStale, Bool.or_eq_false_iff, bne_eq_false_iff_eq] at hstale
  rw [install_eq]
  have hne (k : Nat) : t ≠ c.tasks.length + k :=
    Nat.ne_of_lt (Nat.lt_of_lt_of_le ht (Nat.le_add_right ..))
  refine ⟨hstale, rfl, ⟨rfl, rfl, rfl, ⟨_, rfl, ?_⟩, ⟨_, rfl, ?_⟩⟩, ⟨task, rfl⟩, rfl, rfl, rfl⟩
  · exact (List.getElem?_set_ne (hne 0)).trans (by simp [update])
  · exact (List.getElem?_set_ne (hne 1)).trans (by simp [update])

/-- The steps that a task takes in a run. -/
def ownSteps (t : TaskId) (c : Client) (m : Move) (c' : Client) : List OwnStep :=
  match m with
  | .step u choice => if u = t then [⟨c, choice, c'⟩] else []
  | _ => []

theorem ownSteps_self : ownSteps t c (.step t choice) c' = [⟨c, choice, c'⟩] := if_pos rfl

theorem ownSteps_of_ne (hm : ∀ choice, m ≠ .step t choice) : ownSteps t c m c' = [] := by
  cases m with
  | step u choice => exact if_neg fun hut : u = t => hm choice (hut ▸ rfl)
  | _ => rfl

/-- The own steps of an attempt whose link is installed: one of them has installed it, all before it
were quiet, and those behind it leave it alone. In a run that keeps to the turns nobody else has
moved since, so that all parts are still there. -/
structure Installed (t : TaskId) (f : OpenFrame) (c : Client) (ms : List Move)
    (steps : List OwnStep) (c' : Client) : Prop where
  echoed : steps.flatMap (·.choice.echoes) = [some "holon-rpc"]
  parts : ∃ g early install late, steps = early ++ install :: late ∧
    (∀ s ∈ early, s.IsQuiet t) ∧ install.Installs t f.epoch g ∧ (∀ s ∈ late, s.Follows t) ∧
    ∀ turn turn', c.run turn ms = some (turn', c') → turn' = some t ∧ c'.HasLinkOf g

/-- How far an attempt has come. -/
inductive Progress (t : TaskId) (f : OpenFrame) (c : Client) (ms : List Move)
    (steps : List OwnStep) (c' : Client) : Next OpenPhase (Except Failure Unit) → Prop where
  | waiting {p : OpenPhase} (hp : p.isInstalled = false) (quiet : ∀ s ∈ steps, s.IsQuiet t)
    (heard : p.Heard (steps.flatMap (·.choice.echoes))) : Progress t f c ms steps c' (.phase p)
  | failed (failure : Failure) (quiet : ∀ s ∈ steps, s.IsQuiet t) :
    Progress t f c ms steps c' (.over (.error failure))
  | installed {p : OpenPhase} (hp : p.isInstalled = true) (h : Installed t f c ms steps c') :
    Progress t f c ms steps c' (.phase p)
  | opened (h : Installed t f c ms steps c') (hstatus : c'.shared.status = .opened) :
    Progress t f c ms steps c' (.over (.ok ()))

section Progress

variable {steps : List OwnStep} (hfollow : c.follow ms = some c₁)
  (ht : c₁.tasks[t]? = some (f.next (.phase p)))
include hfollow ht

theorem Progress.other (h : Progress t f c ms steps c₁ (.phase p))
    (hm : ∀ choice, m ≠ .step t choice) : Progress t f c (ms ++ [m]) steps c₂ (.phase p) := by
  cases h with
  | waiting hp quiet heard => exact .waiting hp quiet heard
  | installed hp h =>
    obtain ⟨hechoed, g, early, install, late, hsteps, hearly, hinstall, hlate, hturn⟩ := h
    refine .installed hp ⟨hechoed, g, early, install, late, hsteps, hearly, hinstall, hlate, ?_⟩
    intro turn turn' hrun
    obtain ⟨turn₁, c₃, hms, keeps, -, -⟩ := run_concat.1 hrun
    cases hfollow.symm.trans (follow_of_run hms)
    obtain ⟨rfl, -⟩ := hturn turn turn₁ hms
    cases (f.not_rests_next hp).symm.trans (rests_of_waits ht (waits_of_keepsTurn keeps hm))

omit hfollow in
theorem HasLinkOf.stepped {g : Generation} {x : Task} (h : c₁.HasLinkOf g)
    (hlink : c₂.shared.link = c₁.shared.link)
    (hsink : c₂.shared.outbound.sink = c₁.shared.outbound.sink) (htasks : c₂.tasks = c₁.tasks) :
    HasLinkOf ⟨c₂.shared, c₂.tasks.set t x⟩ g := by
  obtain ⟨hgeneration, hinstalled, hslot, ⟨r, hreceiver, hr⟩, ⟨k, hheart, hk⟩⟩ := h
  have hother {u : TaskId} {y : Task} (hu : c₁.tasks[u]? = some y) (hy : y.isServing = true) :
      (c₂.tasks.set t x)[u]? = some y := by
    rw [htasks, List.getElem?_set_ne, hu]
    rintro rfl
    cases ht.symm.trans hu
    simp at hy
  exact ⟨hlink ▸ hgeneration, hlink ▸ hinstalled, hsink ▸ hslot,
    ⟨r, hlink ▸ hreceiver, hother hr rfl⟩, ⟨k, hlink ▸ hheart, hother hk rfl⟩⟩

theorem Installed.own (h : Installed t f c ms steps c₁) (hp : p.isInstalled = true)
    (hopen : c₁.openStep t f.epoch choice p = some (c₂, next))
    (hstep : c' = ⟨c₂.shared, c₂.tasks.set t (f.next next)⟩) :
    Installed t f c (ms ++ [.step t choice]) (steps ++ [⟨c₁, choice, c'⟩]) c' := by
  obtain ⟨hshared, htasks, hechoes, -⟩ := openStep_installed hopen hp
  obtain ⟨hechoed, g, early, install, late, rfl, hearly, hinstall, hlate, hturn⟩ := h
  have hfollows : OwnStep.Follows t ⟨c₁, choice, c'⟩ := by
    rw [hstep]
    exact ⟨hshared, f.next next, by rw [htasks]⟩
  refine ⟨?_, g, early, install, late ++ [⟨c₁, choice, c'⟩], List.append_assoc .., hearly, hinstall,
    fun s hs => ?_, fun turn turn' hrun => ?_⟩
  · rw [List.flatMap_append, hechoed, List.flatMap_singleton, hechoes]
    rfl
  · obtain hs | hs := List.mem_append.1 hs
    · exact hlate s hs
    · exact List.mem_singleton.1 hs ▸ hfollows
  · obtain ⟨turn₁, c₃, hms, -, -, rfl⟩ := run_concat.1 hrun
    cases hfollow.symm.trans (follow_of_run hms)
    have hlink : c₂.shared.link = c₁.shared.link := by rw [hshared]
    have hslot : c₂.shared.outbound.sink = c₁.shared.outbound.sink := by rw [hshared]
    exact ⟨rfl, hstep ▸ (hturn turn turn₁ hms).2.stepped ht hlink hslot htasks⟩

theorem Progress.own (h : Progress t f c ms steps c₁ (.phase p))
    (hopen : c₁.openStep t f.epoch choice p = some (c₂, next))
    (hstep : c' = ⟨c₂.shared, c₂.tasks.set t (f.next next)⟩) :
    Progress t f c (ms ++ [.step t choice]) (steps ++ [⟨c₁, choice, c'⟩]) c' next := by
  cases h with
  | waiting hp quiet heard =>
    obtain ⟨hshared, htasks, hnext⟩ | ⟨rfl, rfl, hcurrent, rfl, p', rfl, hp'⟩ :=
      openStep_uninstalled hopen hp
    · have hquiet : OwnStep.IsQuiet t ⟨c₁, choice, c'⟩ := by
        rw [hstep]
        exact ⟨hshared, f.next next, by rw [htasks]⟩
      have hall : ∀ s ∈ steps ++ [⟨c₁, choice, c'⟩], s.IsQuiet t := fun s hs =>
        (List.mem_append.1 hs).elim (quiet s) fun hs => List.mem_singleton.1 hs ▸ hquiet
      obtain ⟨failure, rfl⟩ | ⟨p', rfl, hp', hheard⟩ := hnext
      · exact .failed failure hall
      · refine .waiting hp' hall ?_
        rw [List.flatMap_append, List.flatMap_singleton]
        exact hheard _ heard
    · have hinstalls := installs_of_install (List.getElem?_eq_some_iff.1 ht).1 hcurrent .run
        (f.next (.phase p'))
      rw [← hstep] at hinstalls
      refine .installed hp' ⟨?_, _, steps, _, [], rfl, quiet, hinstalls, List.forall_mem_nil _, ?_⟩
      · rw [List.flatMap_append, List.flatMap_singleton]
        exact (List.append_nil _).trans heard
      · intro turn turn' hrun
        obtain ⟨turn₁, c₃, -, -, -, rfl⟩ := run_concat.1 hrun
        exact ⟨rfl, hinstalls.link⟩
  | installed hp h =>
    have hinstalled := h.own hfollow ht hp hopen hstep
    obtain ⟨-, -, -, ⟨p', rfl, hp'⟩ | ⟨rfl, hstatus⟩⟩ := openStep_installed hopen hp
    · exact .installed hp' hinstalled
    · exact .opened hinstalled (hstep ▸ hstatus)

end Progress

/-- A task attempts to open a link in a run, from its first look at the client to the last move,
amid the moves of others. -/
structure Attempts (t : TaskId) (f : OpenFrame) (c : Client) (ms : List Move) (c' : Client) :
    Prop where
  begins : c.tasks[t]? = some (f.next (.phase .checkClosed))
  ran : c.follow ms = some c'
  lasts : ∀ ms₁ c₁, ms₁ <+: ms → ms₁ ≠ ms → c.follow ms₁ = some c₁ →
    ∃ p, c₁.tasks[t]? = some (f.next (.phase p))

theorem Attempts.exists_progress (h : Attempts t f c ms c') :
    ∃ next, c'.tasks[t]? = some (f.next next) ∧
      Progress t f c ms (noted (ownSteps t) c ms) c' next := by
  obtain ⟨hbegins, hran, hlasts⟩ := h
  induction ms using List.reverseRecOn generalizing c' with
  | nil =>
    cases hran
    exact ⟨_, hbegins, .waiting rfl (List.forall_mem_nil _) rfl⟩
  | append_singleton ms m ih =>
    obtain ⟨c₁, hms, hm⟩ := follow_concat.1 hran
    have hprefix : ms <+: ms ++ [m] := List.prefix_append ..
    obtain ⟨next, hnext, hprogress⟩ := ih hms fun ms₁ c₂ hpre hne => by
      refine hlasts ms₁ c₂ (hpre.trans hprefix) ?_
      rintro rfl
      exact absurd hpre.length_le (by simp)
    obtain ⟨p, hp⟩ := hlasts ms c₁ hprefix (by simp) hms
    obtain rfl := OpenFrame.eq_phase_of_next (Option.some.inj (hnext.symm.trans hp))
    rw [noted_concat hms hm]
    by_cases hmine : ∃ choice, m = .step t choice
    · obtain ⟨choice, rfl⟩ := hmine
      obtain ⟨c₂, next, hopen, hstep, hnext⟩ := step_opening hp hm
      exact ⟨next, hnext, ownSteps_self ▸ hprogress.own hms hp hopen hstep⟩
    · have hother (choice) : m ≠ .step t choice := fun heq => hmine ⟨choice, heq⟩
      refine ⟨.phase p, getElem?_unstepped hm hp f.isServing_next hother, ?_⟩
      rw [ownSteps_of_ne hother, List.append_nil]
      exact hprogress.other hms hp hother

/-- Opening is all or nothing. If an attempt fails, for whatever reason and wherever it stands, none
of its own steps has changed anything but the place at the outbound lock, whatever others have done
meanwhile. If it succeeds, the peer has echoed the subprotocol; one of its steps has installed the
link, the sink and the tasks of a new generation together; its steps before that have changed
nothing and those after it leave all this alone; and the last one has made the status open. In a run
that keeps to the turns all of this is there together when the attempt is over. -/
theorem opening_is_all_or_nothing (h : Attempts t f c ms c') :
    (∀ failure, c'.tasks[t]? = some (f.next (.over (.error failure))) →
      ∀ s ∈ noted (ownSteps t) c ms, s.IsQuiet t) ∧
    (c'.tasks[t]? = some (f.next (.over (.ok ()))) →
      (noted (ownSteps t) c ms).flatMap (·.choice.echoes) = [some "holon-rpc"] ∧
      c'.shared.status = .opened ∧
      ∃ g early install late, noted (ownSteps t) c ms = early ++ install :: late ∧
        (∀ s ∈ early, s.IsQuiet t) ∧ install.Installs t f.epoch g ∧ (∀ s ∈ late, s.Follows t) ∧
        ∀ turn turn', c.run turn ms = some (turn', c') → c'.HasLinkOf g) := by
  obtain ⟨next, hnext, hprogress⟩ := h.exists_progress
  refine ⟨fun failure hfailed => ?_, fun hopened => ?_⟩
  · obtain ⟨failure', rfl⟩ :=
      OpenFrame.eq_error_of_next (Option.some.inj (hnext.symm.trans hfailed))
    cases hprogress with
    | failed failure quiet => exact quiet
  · obtain rfl := OpenFrame.eq_over_of_next (Option.some.inj (hnext.symm.trans hopened))
    cases hprogress with
    | opened h hstatus =>
      obtain ⟨hechoed, g, early, install, late, hsteps, hearly, hinstall, hlate, hturn⟩ := h
      exact ⟨hechoed, hstatus, g, early, install, late, hsteps, hearly, hinstall, hlate,
        fun turn turn' hrun => (hturn turn turn' hrun).2⟩

/-- Where a connect is that opens its link, and under which epoch. -/
def openingAt? (c : Client) (t : TaskId) : Option (Nat × OpenPhase) :=
  match c.tasks[t]? with
  | some (.connect (.opening epoch p)) => some (epoch, p)
  | _ => none

/-- How the attempt of a connect has ended. -/
def openingEnd? (c : Client) (t : TaskId) : Option (Option Failure) :=
  match c.tasks[t]? with
  | some (.connect (.done (.ok ()))) => some none
  | some (.connect (.failing .mark failure)) => some (some failure)
  | _ => none

theorem task_of_openingAt? (h : c.openingAt? t = some (epoch, p)) :
    c.tasks[t]? = some ((OpenFrame.connect epoch).next (.phase p)) := by
  unfold openingAt? at h
  split at h
  next epoch p ht =>
    cases h
    exact ht
  next => cases h

theorem task_of_openingEnd? {result : Option Failure} (h : c.openingEnd? t = some result)
    (epoch : Nat) : c.tasks[t]? =
      some ((OpenFrame.connect epoch).next (.over (result.elim (.ok ()) .error))) := by
  unfold openingEnd? at h
  split at h
  next ht =>
    cases h
    exact ht
  next failure ht =>
    cases h
    exact ht
  next => cases h

theorem attempts_of_all (hbegins : c.openingAt? t = some (epoch, .checkClosed))
    (hran : c.follow ms = some c')
    (hall : (List.range ms.length).all fun k =>
      (c.follow (ms.take k)).all fun c₁ => (c₁.openingAt? t).any (·.1 = epoch)) :
    Attempts t (.connect epoch) c ms c' := by
  refine ⟨task_of_openingAt? hbegins, hran, fun ms₁ c₁ hpre hne h => ?_⟩
  have hlt : ms₁.length < ms.length :=
    Nat.lt_of_le_of_ne hpre.length_le fun heq => hne (hpre.eq_of_length heq)
  have hk := List.all_eq_true.1 hall ms₁.length (List.mem_range.2 hlt)
  rw [← List.prefix_iff_eq_take.1 hpre, h] at hk
  obtain ⟨⟨epoch', p⟩, hp, hepoch⟩ := Option.any_eq_true _ _ |>.1 hk
  obtain rfl := of_decide_eq_true hepoch
  exact ⟨p, task_of_openingAt? hp⟩

/-- The peer echoes another subprotocol, and someone closes the client before it is told so. -/
def refused : List Move :=
  List.replicate 3 (.step 0 .run) ++ [.step 0 (.upgraded (some "holon-rpc/2")), .start .close,
    .step 1 .run, .step 0 (.written none)]

/-- A connect opens its link, or the peer refuses it while a close begins. -/
theorem opening_is_all_or_nothing_echoed_and_refused : ∃ c c' c'',
    Attempts 0 (.connect 1) c ((connecting 0).drop 16) c' ∧ c'.openingEnd? 0 = some none ∧
    (c'.shared.status = .opened ∧ ∃ g, c'.HasLinkOf g) ∧
    Attempts 0 (.connect 1) c refused c'' ∧
    c''.openingEnd? 0 = some (some subprotocolMissing) ∧ c''.shared.closed = true ∧
    ∀ s ∈ noted (ownSteps 0) c refused, s.IsQuiet 0 := by
  let opens (c : Client) (ms : List Move) : Bool := (List.range ms.length).all fun k =>
    (c.follow (ms.take k)).all fun c₁ => (c₁.openingAt? 0).any (·.1 = 1)
  have hrun : ((fresh .standard).follow ((connecting 0).take 16)).any (fun c =>
      c.openingAt? 0 = some (1, .checkClosed) ∧ opens c ((connecting 0).drop 16) = true ∧
      opens c refused = true ∧
      ((c.run (some 0) ((connecting 0).drop 16)).any (·.2.openingEnd? 0 = some none)) = true ∧
      ((c.follow refused).any fun c'' =>
        c''.openingEnd? 0 = some (some subprotocolMissing) ∧ c''.shared.closed = true) =
          true) = true := by
    decide +kernel
  obtain ⟨c, -, hfacts⟩ := Option.any_eq_true _ _ |>.1 hrun
  obtain ⟨hbegins, hopens, hrefused, hsuccess, hfailure⟩ := of_decide_eq_true hfacts
  obtain ⟨⟨turn, c'⟩, hc', hend'⟩ := Option.any_eq_true _ _ |>.1 hsuccess
  obtain ⟨c'', hc'', hend''⟩ := Option.any_eq_true _ _ |>.1 hfailure
  obtain ⟨hend'', hclosed⟩ := of_decide_eq_true hend''
  have hattempt' := attempts_of_all hbegins (follow_of_run hc') hopens
  have hattempt'' := attempts_of_all hbegins hc'' hrefused
  have htask' := task_of_openingEnd? (of_decide_eq_true hend') 1
  obtain ⟨-, hstatus, g, early, install, late, -, -, -, -, hlinked⟩ :=
    (opening_is_all_or_nothing hattempt').2 htask'
  exact ⟨c, c', c'', hattempt', of_decide_eq_true hend', ⟨hstatus, g, hlinked _ _ hc'⟩, hattempt'',
    hend'', hclosed, (opening_is_all_or_nothing hattempt'').1 _ (task_of_openingEnd? hend'' 1)⟩

end Client
end DuplexRpc
