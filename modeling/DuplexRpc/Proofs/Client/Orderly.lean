import DuplexRpc.Proofs.Client.Mark
import DuplexRpc.Proofs.Client.Order

/-!
Orderly runs: cooperative runs in which the user lets each connect and each close come to its end
before the next one begins, and does not discard the client. For every phase it is said here what an
orderly run finds in it: who may still install a link, and what stands in the line for the slot.
-/
namespace DuplexRpc

/-- A connect or close in progress. -/
def Task.isSwitching : Task → Bool
  | connect (.done _) => false
  | connect _ => true
  | close p => p.isSome
  | _ => false

/-- The opening has yet to install its link. -/
def OpenPhase.isPending : OpenPhase → Bool
  | failRetired | resetAttempts | publish => false
  | _ => true

/-- The task opens a link, and may still install it if this is the epoch. -/
def Task.isPending (epoch : Nat) : Task → Bool
  | connect (.opening _ p) => p.isPending
  | reconnect e (.opening p) => e == epoch && p.isPending
  | reconnect e p => e == epoch && p.isLooping
  | _ => false

/-- Nobody stands in the line who has registered a call or takes a link down. -/
def Vacant (line : List Stake) : Prop := .caller ∉ line ∧ .pass ∉ line ∧ .closer ∉ line

/-- A stake that nobody else minds. -/
def Stake.isMeek : Stake → Bool
  | replier | opener _ => true
  | _ => false

/-- Behind an opening that may install its link, a close or a pass stands no call and no pass. -/
def Behind (epoch : Nat) (a b : Stake) : Prop :=
  a = .opener epoch ∨ a = .pass ∨ a = .closer → b ≠ .caller ∧ b ≠ .pass

section Line

variable {l l' : List Stake} {epoch : Nat} {a k : Stake}

theorem Vacant.sublist (h : Vacant l) (hl : l'.Sublist l) : Vacant l' :=
  ⟨fun hmem => h.1 (hl.subset hmem), fun hmem => h.2.1 (hl.subset hmem),
    fun hmem => h.2.2 (hl.subset hmem)⟩

theorem Vacant.join (h : Vacant l) (hk : k.isMeek = true) : Vacant (l ++ [k]) := by
  cases k <;> first | (simpa [Vacant] using h) | cases hk

theorem Behind.of_isMeek (hk : k.isMeek = true) : Behind epoch a k := by
  intro _
  cases k with
  | replier | opener _ => exact ⟨nofun, nofun⟩
  | _ => cases hk

theorem pairwise_join (h : l.Pairwise (Behind epoch)) (hk : ∀ a ∈ l, Behind epoch a k) :
    (l ++ [k]).Pairwise (Behind epoch) :=
  List.pairwise_append.2 ⟨h, List.pairwise_singleton .., fun a ha _ hb =>
    List.mem_singleton.1 hb ▸ hk a ha⟩

/-- A passage takes somebody out of the line, or adds one at its end. -/
theorem Client.Passage.sublist_or_join {held : Prop} {i j : Option Stake}
    (h : Client.Passage held l l' i j) :
    l'.Sublist l ∨ ∃ k, i = none ∧ j = some k ∧ l' = l ++ [k] := by
  cases i with
  | none =>
    cases j with
    | none => exact .inl ((show l' = l from h) ▸ .refl l)
    | some k => exact .inr ⟨k, rfl, rfl, h⟩
  | some i =>
    cases j with
    | none => exact .inl h.1
    | some j => exact .inl ((show l' = l from h) ▸ .refl l)

end Line

namespace Shared

/-- The client has lost its link or is closed. -/
def IsDown (s : Shared) : Prop := s.status = .reconnecting ∨ s.status = .closed

/-- What the phases say of the state apart from the line is the same. -/
structure Alike (s s' : Shared) : Prop where
  epoch : s'.epoch = s.epoch
  closed : s'.closed = s.closed
  status : s'.status = s.status
  installed : s'.link.installed = s.link.installed

/-- What a connect of this epoch finds until it installs its link. -/
structure Connects (s : Shared) (line : List Stake) (epoch : Nat) : Prop where
  epoch : epoch = s.epoch
  closed : s.closed = false
  status : s.status = .connecting
  unlinked : s.link.installed = none
  vacant : Vacant line

/-- What a reconnect task of this epoch finds until it installs its link. -/
def Retries (s : Shared) (epoch : Nat) : Prop := epoch = s.epoch → s.status = .reconnecting

end Shared

/-- What a phase of an opening finds in an orderly run, as the definitions below say for the other
phases. In all of them `calm` says that nobody may still install a link. -/
def OpenPhase.Fits (line : List Stake) (early calm : Prop) : OpenPhase → Prop
  | failRetired => False
  | resetAttempts | publish => Vacant line ∧ calm
  | _ => early

def ClosePhase.Fits (s : Shared) (line : List Stake) (calm : Prop) : ClosePhase → Prop
  | mark => True
  | detach | publish _ => s.closed = true ∧ calm
  | shaking _ _ | joining _ | fail => s.closed = true ∧ Vacant line
  | _ => s.closed = true

def ConnectPhase.Fits (s : Shared) (line : List Stake) (calm : Prop) : ConnectPhase → Prop
  | closing _ p | failing p _ => p.Fits s line calm
  | setEndpoint _ | readEpoch => s.closed = true ∧ Vacant line
  | resetAttempts epoch | unclose epoch => epoch = s.epoch ∧ s.closed = true ∧ Vacant line
  | publish epoch =>
    epoch = s.epoch ∧ s.closed = false ∧ s.status = .closed ∧ s.link.installed = none ∧ Vacant line
  | opening epoch p => p.Fits line (s.Connects line epoch) calm
  | _ => True

def StartPhase.Fits (s : Shared) : StartPhase → Prop
  | checkClosed => s.IsDown
  | _ => s.status = .reconnecting

def DisconnectPhase.Fits (s : Shared) (line : List Stake) (calm : Prop) : DisconnectPhase → Prop
  | detach => True
  | signal _ | readClosed | publish => s.closed = false ∧ calm ∧ .pass ∉ line
  | request _ => s.closed = false ∧ s.status = .reconnecting ∧ calm ∧ .pass ∉ line
  | lock _ => s.IsDown
  | fail _ => s.IsDown ∧ .caller ∉ line
  | starting p => p.Fits s

def ReconnectPhase.Fits (s : Shared) (line : List Stake) (calm : Prop) (epoch : Nat) :
    ReconnectPhase → Prop
  | opening p => p.Fits line (s.Retries epoch) calm
  | starting p => p.Fits s
  | clear | recheckClosed | recheckStatus | done => True
  | _ => s.Retries epoch

def Task.Fits (s : Shared) (line : List Stake) (calm : Prop) : Task → Prop
  | connect p => p.Fits s line calm
  | close (some p) => p.Fits s line calm
  | receive _ (.disconnecting p) => p.Fits s line calm
  | reconnect epoch p => p.Fits s line calm epoch
  | _ => True

namespace Client

variable {config : Config} {c c' c₁ : Client} {t u : TaskId} {choice : Choice}
  {turn : Option TaskId} {task task' x y : Task} {m : Move}

/-- What the user may do in an orderly run. -/
def IsOrderly (c : Client) : Move → Prop
  | .start (.connect _) | .start .close =>
    ∀ (t : TaskId) (x : Task), c.tasks[t]? = some x → x.isSwitching = false
  | .start .discard => False
  | _ => True

abbrev Orderly (config : Config) : Option TaskId → Client → Prop := Guided config IsOrderly

theorem isOrderly_iff : c.IsOrderly m ↔ match m with
    | .start (.connect _) | .start .close => (c.tasks.all fun x => !x.isSwitching) = true
    | .start .discard => False
    | _ => True := by
  have hall : (∀ (t : TaskId) (x : Task), c.tasks[t]? = some x → x.isSwitching = false) ↔
      (c.tasks.all fun x => !x.isSwitching) = true := by
    simp only [List.all_eq_true, Bool.not_eq_true', List.mem_iff_getElem?]
    exact ⟨fun h x ⟨t, ht⟩ => h t x ht, fun h t x ht => h x ⟨t, ht⟩⟩
  cases m with
  | start request => cases request <;> first | exact hall | exact .rfl
  | _ => exact .rfl

instance : Decidable (c.IsOrderly m) :=
  match m with
  | .start (.connect _) | .start .close => decidable_of_iff _ isOrderly_iff.symm
  | .start .discard => inferInstanceAs (Decidable False)
  | .start (.call _) | .register _ _ | .cancel _ | .step _ _ => inferInstanceAs (Decidable True)

/-- The orderly run of a list of moves; none if one of them is not possible or not in order. -/
def runOrderly (turn : Option TaskId) (c : Client) : List Move → Option (Option TaskId × Client)
  | [] => some (turn, c)
  | m :: ms =>
    if c.IsOrderly m ∧ c.keepsTurn turn m = true then
      (c.apply m).bind fun c' => runOrderly (m.turn turn) c' ms
    else none

theorem Orderly.of_run {turn' : Option TaskId} {ms : List Move} (run : Orderly config turn c)
    (h : c.runOrderly turn ms = some (turn', c')) : Orderly config turn' c' := by
  induction ms generalizing turn c with
  | nil =>
    cases h
    exact run
  | cons m ms ih =>
    unfold runOrderly at h
    split at h
    next hm =>
      obtain ⟨c₁, h₁, h⟩ := Option.bind_eq_some_iff.1 h
      exact ih (.move m run hm.1 hm.2 h₁) h
    next => cases h

theorem TaskStep.isSwitching (h : TaskStep c t choice task c₁ task')
    (hx : task'.isSwitching = true) : task.isSwitching = true := by
  cases h with
  | @opening f _ _ next h =>
    cases f with
    | connect epoch => rfl
    | reconnect epoch => rcases next with _ | ⟨_ | _⟩ <;> cases hx
  | closing f h => cases f <;> rfl
  | @calling f _ _ next h =>
    revert hx
    fun_cases CallFrame.next f next <;> rintro ⟨⟩
  | @starting f _ _ next h => cases f <;> cases next <;> cases hx
  | @disconnecting g _ _ next h => cases next <;> cases hx
  | @replying g response _ _ next h => cases next <;> cases hx
  | connect h => cases h <;> rfl
  | _ => cases hx

theorem isSwitching_of_isNew (h : x.isNew = true) : x.isSwitching = false := by
  unfold Task.isNew at h
  split at h <;> first | rfl | cases h

/-- A connect or close that begins is the only one. -/
theorem not_isSwitching_of_start {request : Request} (h : c.IsOrderly (.start request))
    (hrequest : request.task.isSwitching = true) (hx : c.tasks[t]? = some x) :
    x.isSwitching = false := by
  cases request with
  | connect url => exact h t x hx
  | close => exact h t x hx
  | _ => cases hrequest

namespace Orderly

theorem isKept (run : Orderly config turn c) : c.IsKept := by
  induction run with
  | fresh => intro t p ht; cases ht
  | move m before permitted keeps h ih =>
    intro t p ht
    cases origin_of_apply h ht with
    | started request hm hx =>
      subst hm
      cases request <;> first | exact permitted | cases hx
    | spawned hnew => cases hnew.1
    | stayed hm hu => exact ih t p hu
    | @stepped _ task _ hm hu hstep hshared =>
      cases task with
      | discard q => exact ih t q hu
      | _ => cases hstep.kind
    | aborted hserving hdone => cases hserving

/-- There is one connect or close at a time. -/
theorem sole (run : Orderly config turn c) (ht : c.tasks[t]? = some x) (hu : c.tasks[u]? = some y)
    (hx : x.isSwitching = true) (hy : y.isSwitching = true) : t = u := by
  induction run generalizing t u x y with
  | fresh => cases ht
  | @move turn c c' m before permitted keeps h ih =>
    cases apply_cases h with
    | start request =>
      obtain ht | ⟨rfl, rfl⟩ := cases_spawn_index ht <;>
        obtain hu | ⟨rfl, rfl⟩ := cases_spawn_index hu
      · exact ih ht hu hx hy
      · cases (not_isSwitching_of_start permitted hy ht).symm.trans hx
      · cases (not_isSwitching_of_start permitted hx hu).symm.trans hy
      · rfl
    | register method handler registry => exact ih ht hu hx hy
    | cancel token => exact ih ht hu hx hy
    | @step v choice task task' c₁ hv hstep =>
      have hbefore {t : TaskId} {x : Task} (ht : (c₁.tasks.set v task')[t]? = some x)
          (hx : x.isSwitching = true) : ∃ y, c.tasks[t]? = some y ∧ y.isSwitching = true := by
        obtain ⟨rfl, rfl⟩ | ⟨-, ht⟩ | ⟨-, -, hnew⟩ :=
          (hstep.grows ((isKept before).not_discard hv)).cases_task ht
        · exact ⟨_, hv, hstep.isSwitching hx⟩
        · exact ⟨x, ht, hx⟩
        · cases (isSwitching_of_isNew hnew.1).symm.trans hx
      obtain ⟨x', ht', hx'⟩ := hbefore ht hx
      obtain ⟨y', hu', hy'⟩ := hbefore hu hy
      exact ih ht' hu' hx' hy'

end Orderly
/-- Nobody may still install a link. -/
def Calm (c : Client) : Prop :=
  ∀ (t : TaskId) (x : Task), c.tasks[t]? = some x → x.isPending c.shared.epoch = false

/-- Everybody finds what his phase finds in an orderly run, and the line is as it is in one. -/
structure InOrder (c : Client) : Prop where
  line : c.stakes.Pairwise (Behind c.shared.epoch)
  fits : ∀ (t : TaskId) (x : Task), c.tasks[t]? = some x → x.Fits c.shared c.stakes c.Calm

theorem exists_of_mem_stakes {k : Stake} (h : k ∈ c.stakes) :
    ∃ (t : TaskId) (x : Task), c.tasks[t]? = some x ∧ x.stake? = some k := by
  obtain ⟨t, -, ht⟩ := List.mem_filterMap.1 h
  unfold stake? at ht
  cases hx : c.tasks[t]? with
  | none => rw [hx] at ht; cases ht
  | some x => exact ⟨t, x, hx, by rwa [hx] at ht⟩

theorem Lined.mem_stakes (h : c.Lined) {k : Stake} (ht : c.tasks[t]? = some x)
    (hx : x.stake? = some k) : k ∈ c.stakes := by
  have hstake : c.stake? t = some k := (stake?_of_getElem? ht).trans hx
  exact List.mem_filterMap.2 ⟨t, (h.placed.staked t).2 (by rw [hstake]; rfl), hstake⟩

/-- Who stands in the line, and what for. -/
inductive Standing : Task → Stake → Prop where
  | caller (f : CallFrame) (id : String) (n : Nat) (p : SendPhase) :
    Standing (f.next (.phase (.sending id n p))) .caller
  | replier (g : Generation) (response : Response) (p : SendPhase) :
    Standing (.receive g (.replying response p)) .replier
  | opener (f : OpenFrame) : Standing (f.next (.phase .lock)) (.opener f.epoch)
  | closer (f : CloseFrame) (tasks : List TaskId) :
    Standing (f.next (.phase (.lock tasks))) .closer
  | pass (g : Generation) (closed : Bool) :
    Standing (.receive g (.disconnecting (.lock closed))) .pass

theorem standing_of_stake? {k : Stake} (h : x.stake? = some k) : Standing x k := by
  cases x with
  | connect p =>
    cases p with
    | closing url p => cases p <;> cases h; exact .closer (.connect url) _
    | failing p failure => cases p <;> cases h; exact .closer (.failed failure) _
    | opening epoch p => cases p <;> cases h; exact .opener (.connect epoch)
    | _ => cases h
  | close p =>
    cases p with
    | none => cases h
    | some p => cases p <;> cases h; exact .closer .close _
  | call spec p =>
    cases p with
    | sending id n p => cases p <;> cases h <;> exact .caller (.call spec) id n _
    | _ => cases h
  | receive g p =>
    cases p with
    | replying response p => cases p <;> cases h <;> exact .replier g response _
    | disconnecting p => cases p <;> cases h; exact .pass g _
    | _ => cases h
  | heart g p =>
    cases p with
    | probing p =>
      cases p with
      | sending id n p => cases p <;> cases h <;> exact .caller (.heart g) id n _
      | _ => cases h
    | _ => cases h
  | reconnect epoch p =>
    cases p with
    | opening p => cases p <;> cases h; exact .opener (.reconnect epoch)
    | _ => cases h
  | discard p => cases h

theorem exists_standing {k : Stake} (h : k ∈ c.stakes) :
    ∃ (t : TaskId) (x : Task), c.tasks[t]? = some x ∧ x.stake? = some k ∧ Standing x k := by
  obtain ⟨t, x, hx, hk⟩ := exists_of_mem_stakes h
  exact ⟨t, x, hx, hk, standing_of_stake? hk⟩

theorem Standing.isPending {epoch : Nat} (h : Standing x (.opener epoch)) :
    x.isPending epoch = true := by
  cases h with
  | opener f =>
    cases f <;> simp [OpenFrame.next, OpenFrame.epoch, Task.isPending, OpenPhase.isPending]

variable {s : Shared} {l : List Stake} {calm : Prop}

theorem Standing.closed (h : Standing x .closer) (hx : x.Fits s l calm) : s.closed = true := by
  cases h with
  | closer f tasks => cases f <;> exact hx

theorem Standing.isSwitching (h : Standing x .closer) : x.isSwitching = true := by
  cases h with
  | closer f tasks => cases f <;> rfl

theorem Standing.isDown (h : Standing x .pass) (hx : x.Fits s l calm) : s.IsDown := by
  cases h with
  | pass g closed => exact hx

/-- Whoever may still install a link finds it missing. -/
theorem status_of_isPending (h : x.isPending s.epoch = true) (hx : x.Fits s l calm) :
    (∃ epoch p, x = .connect (.opening epoch p) ∧ s.Connects l epoch) ∨
      ((∃ epoch p, x = .reconnect epoch p) ∧ x.ownsMark = true ∧ s.status = .reconnecting) := by
  cases x with
  | connect p =>
    cases p with
    | opening epoch p => cases p <;> first | exact .inl ⟨epoch, _, rfl, hx⟩ | cases h
    | _ => cases h
  | reconnect epoch p =>
    cases p with
    | opening p =>
      simp only [Task.isPending, Bool.and_eq_true, beq_iff_eq] at h
      refine .inr ⟨⟨epoch, _, rfl⟩, rfl, ?_⟩
      cases p <;> first | exact hx h.1 | cases h.2
    | _ =>
      simp only [Task.isPending, Bool.and_eq_true, beq_iff_eq] at h
      first
        | exact .inr ⟨⟨epoch, _, rfl⟩, rfl, hx h.1⟩
        | cases h.2
  | _ => cases h

/-- Before a call has been let in to the line nobody stands there who takes a link down, or who may
still install one. -/
theorem InOrder.not_mem_of_opened (h : c.InOrder) (hagrees : c.shared.Agrees)
    (hopened : c.shared.status = .opened) :
    .opener c.shared.epoch ∉ c.stakes ∧ .pass ∉ c.stakes ∧ .closer ∉ c.stakes := by
  refine ⟨fun hmem => ?_, fun hmem => ?_, fun hmem => ?_⟩ <;>
    obtain ⟨t, x, hx, -, hstanding⟩ := exists_standing hmem
  · obtain ⟨_, _, -, hconnects⟩ | ⟨-, -, hstatus⟩ :=
      status_of_isPending hstanding.isPending (h.fits t x hx)
    · cases hopened.symm.trans hconnects.status
    · cases hopened.symm.trans hstatus
  · obtain hstatus | hstatus := hstanding.isDown (h.fits t x hx)
    · cases hopened.symm.trans hstatus
    · cases hopened.symm.trans hstatus
  · cases hopened.symm.trans (hagrees.closed.1 (hstanding.closed (h.fits t x hx)))

end Client
end DuplexRpc
