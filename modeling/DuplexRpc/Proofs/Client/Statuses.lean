import DuplexRpc.Proofs.Client.Lifecycle
import DuplexRpc.Proofs.Client.Reopening
import DuplexRpc.Proofs.Client.Succession

/-!
What the status promises, and how it changes. Between turns an open client has a link, and the slot
has the sink of that link. In an orderly run the status goes from one value to the next along few
edges: tasks of an older epoch or generation write no status and install no link.
-/
namespace DuplexRpc

/-- The status may be followed by this other one. -/
def Status.mayBecome : Status → Status → Bool
  | closed, connecting => true
  | connecting, opened | connecting, closed => true
  | opened, reconnecting | opened, closed => true
  | reconnecting, opened | reconnecting, closed => true
  | _, _ => false

def OpenPhase.StartsFrom (status : Status) : OpenPhase → Prop
  | failRetired | resetAttempts | publish => status ≠ .closed
  | _ => True

def DisconnectPhase.StartsFrom (status : Status) : DisconnectPhase → Prop
  | signal _ | readClosed | publish => status = .opened
  | _ => True

def Task.StartsFrom (status : Status) : Task → Prop
  | connect (.opening _ p) | reconnect _ (.opening p) => p.StartsFrom status
  | receive _ (.disconnecting p) => p.StartsFrom status
  | _ => True

namespace Client

variable {config : Config} {c c' c₁ : Client} {t u : TaskId} {choice : Choice}
  {turn turn' : Option TaskId} {task task' x : Task} {m : Move} {ms : List Move} {s s' : Shared}
  {status : Status}

/-- The link is usable: its last generation is installed, and the slot has the sink of that one. -/
def HasUsableLink (c : Client) : Prop :=
  c.shared.link.installed = some c.shared.link.generation ∧
    c.shared.outbound.sink = some c.shared.link.generation

/-- Open means a usable link: in every state of a cooperative run a link that is installed is usable,
and between turns an open client is not closed and has one. -/
theorem open_means_usable_link (run : Cooperative config turn c) (hkept : c.IsKept) :
    (turn.all c.waits = true → c.shared.status = .opened →
      c.shared.closed = false ∧ c.HasUsableLink) ∧
    (c.shared.link.installed.isSome = true → c.HasUsableLink) := by
  have husable (hlinked : c.shared.link.installed.isSome = true) : c.HasUsableLink := by
    obtain ⟨g, hg⟩ := Option.isSome_iff_exists.1 hlinked
    have hnumber := run.reachable.installed_eq hg
    subst hnumber
    exact ⟨hg, (run.shared_ordered hkept).sink _ hg⟩
  refine ⟨fun hwaits hopened => ?_, husable⟩
  have hagrees : c.shared.Agrees := (run.agrees hkept).rest resting_agreement hwaits
  constructor
  · cases hclosed : c.shared.closed with
    | false => rfl
    | true => cases hopened.symm.trans (hagrees.closed.1 hclosed)
  · exact husable (hagrees.linked hopened)

/-- A close waits for its peer; meanwhile another connect has opened the next link. -/
theorem open_means_usable_link_beside_close : ∃ c, Cooperative .standard (some 4) c ∧ c.IsKept ∧
    c.waits 4 = true ∧ c.isDone 3 = false ∧ c.shared.status = .opened ∧
      c.shared.closed = false ∧ c.HasUsableLink := by
  have hrun : ((fresh .standard).run none
      (connecting 0 ++ .start .close :: List.replicate 7 (.step 3 .run) ++ connecting 4)).any
      (fun r => r.1 = some 4 ∧ (r.2.tasks.all fun x => !x.isDiscard) = true ∧
        r.2.waits 4 = true ∧ r.2.isDone 3 = false ∧ r.2.shared.status = .opened) = true := by
    decide +kernel
  obtain ⟨⟨turn, c⟩, hc, hfacts⟩ := Option.any_eq_true _ _ |>.1 hrun
  obtain ⟨rfl, hall, hwaits, hclosing, hopened⟩ := of_decide_eq_true hfacts
  have run : Cooperative .standard (some 4) c := .continues .fresh (continues_run hc)
  exact ⟨c, run, isKept_of_all hall, hwaits, hclosing, hopened,
    (open_means_usable_link run (isKept_of_all hall)).1 hwaits hopened⟩

theorem startsFrom_of_rests (h : rests x = true) (status : Status) : x.StartsFrom status := by
  cases x with
  | connect p =>
    cases p with
    | opening epoch p => cases p <;> trivial
    | _ => trivial
  | receive g p =>
    cases p with
    | disconnecting p => cases p <;> trivial
    | _ => trivial
  | reconnect epoch p =>
    cases p with
    | opening p => cases p <;> trivial
    | _ => trivial
  | _ => trivial

theorem startsFrom_of_isLooping {epoch : Nat} {p : ReconnectPhase} (h : p.isLooping = true) :
    (Task.reconnect epoch p).StartsFrom status := by
  cases p <;> trivial

@[simp] theorem OpenFrame.startsFrom_next (f : OpenFrame)
    (next : Next OpenPhase (Except Failure Unit)) :
    (f.next next).StartsFrom status ↔ next.elim (·.StartsFrom status) True := by
  cases f <;> rcases next with p | ⟨_ | _⟩ <;> exact .rfl

theorem OpenStep.startsFrom {epoch : Nat} {p : OpenPhase}
    {next : Next OpenPhase (Except Failure Unit)} (h : OpenStep c t epoch p c' next)
    (hagrees : p.Agrees c.shared) (hp : p.StartsFrom c.shared.status) :
    next.elim (·.StartsFrom c'.shared.status) True := by
  cases h with
  | @look p p' hearly hearly' => cases p' <;> trivial
  | install held h =>
    have hclosed : c.shared.closed = false := (Bool.or_eq_false_iff.1 h).1
    have hstatus : c.shared.status ≠ .closed := fun hstatus => by
      cases hclosed.symm.trans (hagrees.closed.2 hstatus)
    cases c.shared.link.installed <;> exact hstatus
  | failRetired | resetAttempts => exact hp
  | _ => trivial

/-- Nobody connects while there is a link, so a pass that takes it down finds the client open. -/
theorem Scene.opened_of_linked {g : Generation} {p : ReceivePhase}
    (scene : Scene config c t (.receive g p)) (hagrees : c.shared.Agrees)
    (hlinked : c.shared.link.installed ≠ none) : c.shared.status = .opened := by
  cases hstatus : c.shared.status with
  | opened => rfl
  | closed => exact absurd (hagrees.unlinked (.inl hstatus)) hlinked
  | reconnecting => exact absurd (hagrees.unlinked (.inr hstatus)) hlinked
  | connecting =>
    obtain ⟨u, x, hu, hconnecting⟩ := scene.reachable.exists_connecting scene.kept hstatus
    have hut : u ≠ t := by
      rintro rfl
      cases scene.present.symm.trans hu
      cases hconnecting
    have hrest := scene.others hut hu
    have hfit := scene.inOrder.fits u x hu
    cases x with
    | connect p =>
      cases p with
      | opening epoch p =>
        have hconnects : c.shared.Connects c.stakes epoch := by
          cases p <;> first | exact hfit | cases hrest
        exact absurd hconnects.unlinked hlinked
      | failing p failure =>
        cases p <;> first | (cases hrest; done) | cases hconnecting
      | _ => cases hconnecting
    | _ => cases hconnecting

theorem TaskStep.startsFrom (h : TaskStep c t choice task c₁ task')
    (scene : Scene config c t task) (hx : task.StartsFrom c.shared.status) :
    task'.StartsFrom c₁.shared.status := by
  have hd := scene.kept.not_discard scene.present
  cases h with
  | opening f h =>
    simpa using h.startsFrom (by simpa using scene.agrees) (by simpa using hx)
  | @closing f _ p next h => cases f <;> cases next <;> trivial
  | @calling f _ p next h =>
    fun_cases CallFrame.next f next <;> trivial
  | @starting f _ p next h => cases f <;> cases next <;> trivial
  | disconnecting g h =>
    cases h with
    | detach hold hg => exact scene.opened_of_linked scene.agrees (by simp [hold])
    | signal old => exact hx
    | unclosed h => exact hx
    | _ => trivial
  | @replying g response _ p next h => cases next <;> trivial
  | connect h => cases h <;> trivial
  | receive g h =>
    cases h with
    | handled id result => cases id <;> trivial
    | _ => trivial
  | heart g h => trivial
  | reconnect epoch h =>
    cases h with
    | look hp hp' => exact startsFrom_of_isLooping hp'
    | _ => trivial
  | discard h => cases hd

/-- From where the one whose turn it is publishes, as an assertion. -/
def publishing : Assertion := ⟨fun _ => True, fun _ x c => x.StartsFrom c.shared.status⟩

theorem resting_publishing : publishing.Resting := fun _ hrests =>
  iff_of_true (startsFrom_of_rests hrests _) trivial

theorem stable_publishing (config : Config) : publishing.Stable config IsOrderly where
  fresh := trivial
  resting := resting_publishing
  outer _ _ _ _ _ := trivial
  step run _ keeps ht h hx := h.startsFrom (Orderly.scene run keeps ht) hx

/-- The move is a step of a connect or close in progress. -/
def Switches (c : Client) (m : Move) : Prop :=
  ∃ t choice x, m = .step t choice ∧ c.tasks[t]? = some x ∧ x.isSwitching = true

/-- The status goes along an edge if it changes; only who switches gives up a lost link; and a link
is installed only where there is none. -/
structure Proceeds (s s' : Shared) (switches : Prop) : Prop where
  edge : s'.status = s.status ∨ s.status.mayBecome s'.status = true
  given_up : s.status = .reconnecting → s'.status = .closed → switches
  installed : s'.link.installed = s.link.installed ∨ s'.link.installed = none ∨
    s.link.installed = none

theorem Proceeds.still {switches : Prop} (hstatus : s'.status = s.status)
    (hinstalled : s'.link.installed = s.link.installed ∨ s'.link.installed = none ∨
      s.link.installed = none) : Proceeds s s' switches where
  edge := .inl hstatus
  given_up hlost hclosed := by cases hlost.symm.trans (hstatus.symm.trans hclosed)
  installed := hinstalled

theorem OpenStep.proceeds {f : OpenFrame} {p : OpenPhase}
    {next : Next OpenPhase (Except Failure Unit)} (h : OpenStep c t f.epoch p c' next)
    (scene : Scene config c t (f.next (.phase p)))
    (hx : (f.next (.phase p)).StartsFrom c.shared.status) (switches : Prop) :
    Proceeds c.shared c'.shared switches := by
  cases h with
  | install held h =>
    have hepoch : c.shared.epoch = f.epoch := by
      simpa [isStale] using (Bool.or_eq_false_iff.1 h).2
    have hearly : f.Early c.shared c.stakes :=
      (f.fits_phase .lock).1 (scene.inOrder.fits t _ scene.present)
    have hagrees : c.shared.Agrees := (f.agrees_next (.phase .lock)).1 scene.agrees
    exact .still rfl (.inr (.inr (hearly.unlinked hagrees hepoch.symm)))
  | publish =>
    have hstatus : c.shared.status ≠ .closed := (f.startsFrom_next (.phase .publish)).1 hx
    refine ⟨?_, fun _ hclosed => (by cases hclosed), .inl rfl⟩
    change Status.opened = c.shared.status ∨ c.shared.status.mayBecome .opened = true
    cases hcases : c.shared.status with
    | closed => exact absurd hcases hstatus
    | opened => exact .inl rfl
    | _ => exact .inr rfl
  | _ => exact .still rfl (.inl rfl)

theorem CloseStep.proceeds (f : CloseFrame) {p : ClosePhase} {next : Next ClosePhase Unit}
    (h : CloseStep c t p c' next) :
    Proceeds c.shared c'.shared ((f.next (.phase p)).isSwitching = true) := by
  cases h with
  | detach => exact .still rfl (.inr (.inl rfl))
  | publish d =>
    refine ⟨?_, fun _ _ => by cases f <;> rfl, .inl rfl⟩
    change Status.closed = c.shared.status ∨ c.shared.status.mayBecome .closed = true
    cases c.shared.status with
    | closed => exact .inl rfl
    | _ => exact .inr rfl
  | _ => exact .still rfl (.inl rfl)

theorem TaskStep.proceeds (h : TaskStep c t choice task c₁ task') (scene : Scene config c t task)
    (hx : task.StartsFrom c.shared.status) :
    Proceeds c.shared c₁.shared (task.isSwitching = true) := by
  have hd := scene.kept.not_discard scene.present
  have hfit := scene.inOrder.fits t task scene.present
  cases h with
  | opening f h => exact h.proceeds scene hx _
  | closing f h => exact h.proceeds f
  | calling f h =>
    cases h with
    | send id n h | sent id n h | unsent id n h => cases h <;> exact .still rfl (.inl rfl)
    | _ => exact .still rfl (.inl rfl)
  | starting f h => cases h <;> exact .still rfl (.inl rfl)
  | disconnecting g h =>
    cases h with
    | detach hold hg => exact .still rfl (.inr (.inl rfl))
    | publish =>
      have hstatus : c.shared.status = .opened := hx
      exact ⟨.inr (by rw [hstatus]; rfl), fun _ => nofun, .inl rfl⟩
    | _ => exact .still rfl (.inl rfl)
  | replying g response h => cases h <;> exact .still rfl (.inl rfl)
  | connect h =>
    cases h with
    | publish epoch =>
      have hstatus : c.shared.status = .closed := hfit.2.2.1
      exact ⟨.inr (by rw [hstatus]; rfl), fun _ => nofun, .inl rfl⟩
    | _ => exact .still rfl (.inl rfl)
  | receive g h => cases h <;> exact .still rfl (.inl rfl)
  | heart g h => cases h <;> exact .still rfl (.inl rfl)
  | reconnect epoch h => cases h <;> exact .still rfl (.inl rfl)
  | discard h => cases hd

theorem Orderly.proceeds (run : Orderly config turn c) (keeps : c.keepsTurn turn m = true)
    (h : c.apply m = some c') : Proceeds c.shared c'.shared (c.Switches m) := by
  cases apply_cases h with
  | @step t choice x x' c₁ ht hstep =>
    have hx : x.StartsFrom c.shared.status :=
      ((stable_publishing config).holds run (Orderly.isKept run)).amid resting_publishing
        run.cooperative keeps ht
    obtain ⟨edge, given_up, installed⟩ := hstep.proceeds (Orderly.scene run keeps ht) hx
    exact ⟨edge, fun hlost hclosed => ⟨t, choice, x, rfl, ht, given_up hlost hclosed⟩, installed⟩
  | _ => exact .still rfl (.inl rfl)

/-- The statuses of a run: the first one and each one that differs from the one before it. -/
def statuses (c : Client) (ms : List Move) : List Status :=
  c.shared.status :: noted (fun c _ c' =>
    if c'.shared.status = c.shared.status then [] else [c'.shared.status]) c ms

/-- One move of a run with the states before and after it. -/
structure Transition where
  before : Client
  move : Move
  after : Client

def transitions : Client → List Move → List Transition := noted fun c m c' => [⟨c, m, c'⟩]

theorem runOrderly_cons : c.runOrderly turn (m :: ms) = some (turn', c') ↔ c.IsOrderly m ∧
    c.keepsTurn turn m = true ∧ ∃ c₁, c.apply m = some c₁ ∧
      c₁.runOrderly (m.turn turn) ms = some (turn', c') := by
  simp only [runOrderly, ite_eq_iff, and_assoc, Option.bind_eq_some_iff, reduceCtorEq, and_false,
    or_false]

theorem Orderly.isChain_statuses (run : Orderly config turn c)
    (h : c.runOrderly turn ms = some (turn', c')) :
    (c.statuses ms).IsChain (Status.mayBecome · ·) := by
  induction ms generalizing turn c with
  | nil => exact .singleton _
  | cons m ms ih =>
    obtain ⟨permitted, keeps, c₁, hm, h⟩ := runOrderly_cons.1 h
    have hrest := ih (.move m run permitted keeps hm) h
    unfold statuses at hrest ⊢
    simp only [noted, hm, Option.elim_some]
    split
    next hsame => rwa [List.nil_append, ← hsame]
    next hchange =>
      have hedge := (Orderly.proceeds run keeps hm).edge.resolve_left hchange
      exact List.isChain_cons_cons.2 ⟨hedge, hrest⟩

theorem Orderly.forall_transitions (run : Orderly config turn c)
    (h : c.runOrderly turn ms = some (turn', c')) (e : Transition) (he : e ∈ c.transitions ms) :
    Proceeds e.before.shared e.after.shared (e.before.Switches e.move) := by
  induction ms generalizing turn c with
  | nil => cases he
  | cons m ms ih =>
    obtain ⟨permitted, keeps, c₁, hm, h⟩ := runOrderly_cons.1 h
    unfold transitions at he
    simp only [noted, hm, Option.elim_some, List.singleton_append, List.mem_cons] at he
    obtain rfl | he := he
    · exact Orderly.proceeds run keeps hm
    · exact ih (.move m run permitted keeps hm) h he

/-- The lifecycle: in an orderly run the statuses follow the edges; a lost link is given up only by
a connect or close of the user; and a link is only ever installed where there is none. -/
theorem statuses_follow_edges (h : (fresh config).runOrderly none ms = some (turn, c)) :
    ((fresh config).statuses ms).IsChain (Status.mayBecome · ·) ∧
    ∀ e ∈ (fresh config).transitions ms,
      (e.before.shared.status = .reconnecting → e.after.shared.status = .closed →
        e.before.Switches e.move) ∧
      (e.after.shared.link.installed = e.before.shared.link.installed ∨
        e.after.shared.link.installed = none ∨ e.before.shared.link.installed = none) := by
  refine ⟨Orderly.isChain_statuses .fresh h, fun e he => ?_⟩
  obtain ⟨-, given_up, installed⟩ := Orderly.forall_transitions .fresh h e he
  exact ⟨given_up, installed⟩

/-- A lost link is opened again and lost again, and then the user closes the client; the reconnect
task that slept meanwhile sees that it is superseded. -/
def lifetime : List Move :=
  reopening ++ .step 3 .elapsed :: List.replicate 5 (.step 3 .run) ++
    .step 3 (.upgraded (some Protocol.subprotocol)) :: List.replicate 7 (.step 3 .run) ++
    .step 4 (.frame .ended) :: List.replicate 10 (.step 4 .run) ++
    [.step 6 .run, .step 6 .run, .step 6 (.drawn .zero), .start .close] ++
    List.replicate 9 (.step 7 .run) ++ [.step 6 .cancelled, .step 6 .run, .step 6 .run]

theorem statuses_follow_edges_lifetime :
    (∃ turn c, (fresh .standard).runOrderly none lifetime = some (turn, c)) ∧
    (fresh .standard).statuses lifetime =
      [.closed, .connecting, .opened, .reconnecting, .opened, .reconnecting, .closed] ∧
    ((fresh .standard).statuses lifetime).IsChain (Status.mayBecome · ·) ∧
    ∃ e ∈ (fresh .standard).transitions lifetime, e.before.shared.status = .reconnecting ∧
      e.after.shared.status = .closed ∧ e.before.Switches e.move := by
  have hrun : ((fresh .standard).runOrderly none lifetime).isSome = true := by decide +kernel
  have hstatuses : (fresh .standard).statuses lifetime =
      [.closed, .connecting, .opened, .reconnecting, .opened, .reconnecting, .closed] := by
    decide +kernel
  have hclose : ((fresh .standard).transitions lifetime).any (fun e =>
      e.before.shared.status = .reconnecting ∧ e.after.shared.status = .closed) = true := by
    decide +kernel
  obtain ⟨⟨turn, c⟩, hc⟩ := Option.isSome_iff_exists.1 hrun
  obtain ⟨hchain, htransitions⟩ := statuses_follow_edges hc
  obtain ⟨e, he, hfacts⟩ := List.any_eq_true.1 hclose
  obtain ⟨hlost, hclosed⟩ := of_decide_eq_true hfacts
  exact ⟨⟨turn, c, hc⟩, hstatuses, hchain, e, he, hlost, hclosed,
    (htransitions e he).1 hlost hclosed⟩

end Client
end DuplexRpc
