import DuplexRpc.Proofs.Client.Agreement
import DuplexRpc.Proofs.Client.Serving
import Mathlib.Data.List.Nodup

/-!
The line for the outbound slot: its holder first, then those that wait. It has room for every task
once, and exactly those stand in it whose phase says so. So what the line consists of changes at its
two ends only, but for those that give up their place.
-/
namespace DuplexRpc

/-- What a task stands in the line for. -/
inductive Stake where
  | caller
  | replier
  | opener (epoch : Nat)
  | closer
  | pass
  deriving DecidableEq

def Outbound.line (o : Outbound) : List TaskId := o.holder.toList ++ o.queue

def SendPhase.stake? (stake : Stake) : SendPhase → Option Stake
  | request => none
  | _ => some stake

def OpenPhase.stake? (epoch : Nat) : OpenPhase → Option Stake
  | lock => some (.opener epoch)
  | _ => none

def ClosePhase.stake? : ClosePhase → Option Stake
  | lock _ => some .closer
  | _ => none

def DisconnectPhase.stake? : DisconnectPhase → Option Stake
  | lock _ => some .pass
  | _ => none

def CallPhase.stake? : CallPhase → Option Stake
  | sending _ _ p => p.stake? .caller
  | _ => none

def Task.stake? : Task → Option Stake
  | connect (.closing _ p) => p.stake?
  | connect (.opening epoch p) => p.stake? epoch
  | connect (.failing p _) => p.stake?
  | close (some p) => p.stake?
  | call _ p => p.stake?
  | receive _ (.replying _ p) => p.stake? .replier
  | receive _ (.disconnecting p) => p.stake?
  | heart _ (.probing p) => p.stake?
  | reconnect epoch (.opening p) => p.stake? epoch
  | _ => none

def CallPhase.isWriting : CallPhase → Bool
  | sending _ _ (.writing _) => true
  | _ => false

/-- The task writes a text, and has the slot for it. -/
def Task.isWriting : Task → Bool
  | call _ p => p.isWriting
  | receive _ (.replying _ (.writing _)) => true
  | heart _ (.probing p) => p.isWriting
  | _ => false

namespace Client

variable {config : Config} {c c' c₁ : Client} {t u : TaskId} {choice : Choice}
  {turn : Option TaskId} {task task' x : Task}

def stake? (c : Client) (t : TaskId) : Option Stake := (c.tasks[t]?).elim none Task.stake?

/-- What the line is for, from its head on. -/
def stakes (c : Client) : List Stake := c.shared.outbound.line.filterMap c.stake?

/-- What a step of a task means for the line: it stays where it is, joins at the end, goes from the
head, or gives up its place. -/
inductive LineStep (t : TaskId) (o : Outbound) : Option Stake → Outbound → Option Stake → Prop where
  | stay {o' : Outbound} (stake : Option Stake) (holder : o'.holder = o.holder)
    (queue : o'.queue = o.queue) : LineStep t o stake o' stake
  | join {o' : Outbound} (stake : Stake) (holder : o'.holder = (o.request t).holder)
    (queue : o'.queue = (o.request t).queue) : LineStep t o none o' (some stake)
  | go {o' : Outbound} (stake : Stake) (held : o.holder = some t)
    (holder : o'.holder = o.release.holder) (queue : o'.queue = o.release.queue) :
    LineStep t o (some stake) o' none
  | quit {o' : Outbound} (stake : Stake) (holder : o'.holder = (o.leave t).holder)
    (queue : o'.queue = (o.leave t).queue) : LineStep t o (some stake) o' none

theorem holds_iff : c.holds t = true ↔ c.shared.outbound.holder = some t := by
  simp [holds, Outbound.isHeldBy]

theorem stake?_of_isEarly {epoch : Nat} {p : OpenPhase} (h : p.isEarly = true) :
    p.stake? epoch = none := by
  cases p <;> first | rfl | cases h

theorem stake?_of_isOutside {p : CallPhase} (h : p.isOutside = true) : p.stake? = none := by
  cases p <;> first | rfl | cases h

theorem stake?_of_isLooping {epoch : Nat} {p : ReconnectPhase} (h : p.isLooping = true) :
    (Task.reconnect epoch p).stake? = none := by
  cases p <;> first | rfl | cases h

theorem SendStep.line {text : String} {stake : Stake} {p : SendPhase}
    {next : Next SendPhase (Except Failure Unit)} (h : SendStep c t text p c' next)
    (hwriting : ∀ g, p = .writing g → c.holds t = true) :
    LineStep t c.shared.outbound (p.stake? stake) c'.shared.outbound
      (next.elim (·.stake? stake) none) := by
  cases h with
  | ask => exact .join stake rfl rfl
  | begin held hsink => exact .stay _ rfl rfl
  | unconnected held hsink => exact .go stake (holds_iff.1 held) rfl rfl
  | written g | broken g report => exact .go stake (holds_iff.1 (hwriting g rfl)) rfl rfl

theorem OpenStep.line {epoch : Nat} {p : OpenPhase} {next : Next OpenPhase (Except Failure Unit)}
    (h : OpenStep c t epoch p c' next) :
    LineStep t c.shared.outbound (p.stake? epoch) c'.shared.outbound
      (next.elim (·.stake? epoch) none) := by
  cases h with
  | look hp hp' =>
    rw [stake?_of_isEarly hp, Next.elim, stake?_of_isEarly hp']
    exact .stay none rfl rfl
  | fail failure hp =>
    rw [stake?_of_isEarly hp]
    exact .stay none rfl rfl
  | ask => exact .join _ rfl rfl
  | late held => exact .quit _ rfl rfl
  | stale held h => exact .go _ (holds_iff.1 held) rfl rfl
  | install held h =>
    cases c.shared.link.installed <;> exact .go _ (holds_iff.1 held) rfl rfl
  | _ => exact .stay none rfl rfl

theorem CloseStep.line {p : ClosePhase} {next : Next ClosePhase Unit}
    (h : CloseStep c t p c' next) : LineStep t c.shared.outbound p.stake? c'.shared.outbound
      (next.elim ClosePhase.stake? none) := by
  cases h with
  | ask tasks => exact .join _ rfl rfl
  | take tasks held =>
    cases c.shared.outbound.sink <;> exact .go _ (holds_iff.1 held) rfl rfl
  | _ => exact .stay none rfl rfl

theorem DisconnectStep.line {g : Generation} {p : DisconnectPhase}
    {next : Next DisconnectPhase Unit} (h : DisconnectStep c t g p c' next) :
    LineStep t c.shared.outbound p.stake? c'.shared.outbound
      (next.elim DisconnectPhase.stake? none) := by
  cases h with
  | ask closed => exact .join _ rfl rfl
  | clear closed held => exact .go _ (holds_iff.1 held) rfl rfl
  | _ => exact .stay none rfl rfl

theorem CallStep.line {spec : CallSpec} {p : CallPhase} {next : Next CallPhase (Option Outcome)}
    (h : CallStep c t spec choice p c' next) (hwriting : p.isWriting = true → c.holds t = true) :
    LineStep t c.shared.outbound p.stake? c'.shared.outbound (next.elim CallPhase.stake? none) := by
  cases h with
  | look hp hp' =>
    rw [stake?_of_isOutside hp, Next.elim, stake?_of_isOutside hp']
    exact .stay none rfl rfl
  | turnedAway hp | enter hp =>
    rw [stake?_of_isOutside hp]
    exact .stay none rfl rfl
  | send id n h => exact h.line fun g hg => hwriting (hg ▸ rfl)
  | sent id n h => exact h.line fun g hg => hwriting (hg ▸ rfl)
  | unsent id n h => exact h.line fun g hg => hwriting (hg ▸ rfl)
  | @dropSending id n p hp dropped =>
    cases p with
    | request => exact absurd rfl hp
    | lock | writing g => exact .quit _ rfl rfl
  | _ => exact .stay none rfl rfl

@[simp] theorem OpenFrame.stake?_next (f : OpenFrame)
    (next : Next OpenPhase (Except Failure Unit)) :
    (f.next next).stake? = next.elim (·.stake? f.epoch) none := by
  cases f <;> rcases next with p | ⟨_ | _⟩ <;> rfl

@[simp] theorem CloseFrame.stake?_next (f : CloseFrame) (next : Next ClosePhase Unit) :
    (f.next next).stake? = next.elim ClosePhase.stake? none := by
  cases f <;> cases next <;> rfl

@[simp] theorem CallFrame.stake?_next (f : CallFrame) (next : Next CallPhase (Option Outcome)) :
    (f.next next).stake? = next.elim CallPhase.stake? none := by
  fun_cases CallFrame.next f next <;> rfl

@[simp] theorem StartFrame.stake?_next (f : StartFrame) (next : Next StartPhase Unit) :
    (f.next next).stake? = none := by
  cases f <;> cases next <;> rfl

@[simp] theorem stake?_passNext (g : Generation) (next : Next DisconnectPhase Unit) :
    (passNext g next).stake? = next.elim DisconnectPhase.stake? none := by
  cases next <;> rfl

@[simp] theorem stake?_replyNext (g : Generation) (response : Response)
    (next : Next SendPhase (Except Failure Unit)) :
    (replyNext g response next).stake? = next.elim (·.stake? .replier) none := by
  cases next <;> rfl

@[simp] theorem CallFrame.isWriting_next (f : CallFrame) (next : Next CallPhase (Option Outcome)) :
    (f.next next).isWriting = next.elim CallPhase.isWriting false := by
  fun_cases CallFrame.next f next <;> rfl

theorem TaskStep.line (h : TaskStep c t choice task c₁ task') (hd : task.isDiscard = false)
    (hwriting : task.isWriting = true → c.holds t = true) :
    LineStep t c.shared.outbound task.stake? c₁.shared.outbound task'.stake? := by
  cases h with
  | opening f h => simpa using h.line
  | closing f h => simpa using h.line
  | calling f h => simpa using h.line (by simpa using hwriting)
  | starting f h =>
    rw [f.stake?_next, f.stake?_next]
    cases h <;> exact .stay none rfl rfl
  | disconnecting g h =>
    simpa using h.line
  | replying g response h =>
    rw [stake?_replyNext, stake?_replyNext]
    exact h.line fun g' hg => hwriting (hg ▸ rfl)
  | connect h => cases h <;> exact .stay none rfl rfl
  | receive g h =>
    cases h with
    | handled id result => cases id <;> exact .stay none rfl rfl
    | _ => exact .stay none rfl rfl
  | heart g h => cases h <;> exact .stay none rfl rfl
  | reconnect epoch h =>
    cases h with
    | look hp hp' =>
      rw [stake?_of_isLooping hp, stake?_of_isLooping hp']
      exact .stay none rfl rfl
    | leave hp h =>
      rw [stake?_of_isLooping hp]
      exact .stay none rfl rfl
    | _ => exact .stay none rfl rfl
  | discard h => cases hd

end Client

namespace Outbound

variable {o o' : Outbound} {t : TaskId}

@[simp] theorem sink_leave (o : Outbound) (t : TaskId) : (o.leave t).sink = o.sink := by
  unfold leave
  split <;> rfl

theorem line_congr (holder : o'.holder = o.holder) (queue : o'.queue = o.queue) :
    o'.line = o.line := by
  rw [line, line, holder, queue]

theorem line_request (hfree : o.holder = none → o.queue = []) :
    (o.request t).line = o.line ++ [t] := by
  unfold request line
  cases ho : o.holder with
  | none => simp [hfree ho]
  | some u => simp

theorem line_release (held : o.holder = some t) : o.line = t :: o.release.line := by
  unfold release line
  cases o.queue <;> simp [held]

theorem line_leave (hnodup : o.line.Nodup) : (o.leave t).line = o.line.filter (· != t) := by
  have hkeep {l : List TaskId} (hl : t ∉ l) : l.filter (· != t) = l :=
    List.filter_eq_self.2 fun u hu => bne_iff_ne.2 fun heq => hl (heq ▸ hu)
  unfold leave
  split
  next held =>
    have hline := line_release held
    rw [hline, List.nodup_cons] at hnodup
    rw [hline, List.filter_cons_of_neg (by simp), hkeep hnodup.1]
  next held =>
    have hholder : t ∉ o.holder.toList := by simpa [Option.mem_toList] using held
    rw [line, line, List.filter_append, hkeep hholder]

/-- Nobody waits for a slot that is free. -/
def Free (o : Outbound) : Prop := o.holder = none → o.queue = []

theorem Free.congr (h : o.Free) (holder : o'.holder = o.holder) (queue : o'.queue = o.queue) :
    o'.Free := by
  rwa [Free, holder, queue]

theorem Free.release : o.release.Free := by
  unfold Free Outbound.release
  cases o.queue <;> simp

theorem Free.request : (o.request t).Free := by
  unfold Free Outbound.request
  cases ho : o.holder <;> simp

theorem Free.leave (h : o.Free) : (o.leave t).Free := by
  unfold Outbound.leave
  split
  · exact .release
  · intro hholder
    simp [h hholder]

end Outbound

namespace Client

/-- The line has nobody twice, and those in it whose phase says so. -/
structure Placed (o : Outbound) (stake : TaskId → Option Stake) : Prop where
  free : o.Free
  nodup : o.line.Nodup
  staked : ∀ t, t ∈ o.line ↔ (stake t).isSome = true

variable {o o' : Outbound} {stake : TaskId → Option Stake} {t : TaskId} {k k' : Option Stake}

/-- What a line consists of before and after a step of one that stands in it or not. -/
def Passage (held : Prop) (l l' : List Stake) : Option Stake → Option Stake → Prop
  | none, none => l' = l
  | none, some k => l' = l ++ [k]
  | some k, none => l'.Sublist l ∧ (held → l = k :: l')
  | some _, some _ => l' = l

theorem filterMap_update {l : List TaskId} (h : t ∉ l) (stake : TaskId → Option Stake)
    (k : Option Stake) : l.filterMap (Function.update stake t k) = l.filterMap stake :=
  List.filterMap_congr fun u hu => Function.update_of_ne (fun heq : u = t => h (heq ▸ hu)) _ _

theorem isSome_update (stake : TaskId → Option Stake) (k : Option Stake) (u : TaskId) :
    (Function.update stake t k u).isSome = true ↔
      (u = t ∧ k.isSome = true) ∨ (u ≠ t ∧ (stake u).isSome = true) := by
  by_cases hu : u = t
  · subst hu
    simp
  · simp [hu]

theorem LineStep.placed (h : LineStep t o k o' k') (hp : Placed o stake) (hk : stake t = k) :
    Placed o' (Function.update stake t k') ∧
      Passage (o.holder = some t) (o.line.filterMap stake)
        (o'.line.filterMap (Function.update stake t k')) k k' := by
  obtain ⟨hfree, hnodup, hstaked⟩ := hp
  cases h with
  | stay k holder queue =>
    have hline := Outbound.line_congr holder queue
    rw [← hk, Function.update_eq_self, hline]
    refine ⟨⟨hfree.congr holder queue, hline ▸ hnodup, hline ▸ hstaked⟩, ?_⟩
    cases stake t <;> rfl
  | join k holder queue =>
    have hout : t ∉ o.line := fun ht => by simp [hk, hstaked t] at ht
    have hline : o'.line = o.line ++ [t] :=
      (Outbound.line_congr holder queue).trans (Outbound.line_request hfree)
    refine ⟨⟨Outbound.Free.request.congr holder queue, ?_, fun u => ?_⟩, ?_⟩
    · rw [hline, List.nodup_append]
      exact ⟨hnodup, List.nodup_singleton t, fun u hu v hv heq =>
        hout (List.mem_singleton.1 hv ▸ heq ▸ hu)⟩
    · rw [hline, List.mem_append, List.mem_singleton, hstaked, isSome_update]
      by_cases hu : u = t <;> simp [hu]
    · rw [hline, List.filterMap_append, filterMap_update hout]
      simp [Passage]
  | go k held holder queue =>
    have hline : o.line = t :: o'.line :=
      (Outbound.line_release held).trans (congrArg _ (Outbound.line_congr holder queue).symm)
    rw [hline, List.nodup_cons] at hnodup
    have hrest : (o.line.filterMap stake) = k :: o'.line.filterMap stake := by
      rw [hline, List.filterMap_cons, hk]
    refine ⟨⟨Outbound.Free.release.congr holder queue, hnodup.2, fun u => ?_⟩, ?_⟩
    · have hu := hstaked u
      rw [hline, List.mem_cons] at hu
      rw [isSome_update, ← hu]
      by_cases hut : u = t
      · subst hut
        simp [hnodup.1]
      · simp [hut]
    · rw [filterMap_update hnodup.1, hrest]
      exact ⟨List.sublist_cons_self .., fun _ => rfl⟩
  | quit k holder queue =>
    have hline : o'.line = o.line.filter (· != t) :=
      (Outbound.line_congr holder queue).trans (Outbound.line_leave hnodup)
    refine ⟨⟨hfree.leave.congr holder queue, hline ▸ hnodup.filter _, fun u => ?_⟩, ?_, ?_⟩
    · rw [hline, List.mem_filter, isSome_update, hstaked]
      simp [and_comm]
    · have hout : t ∉ o'.line := by simp [hline]
      rw [filterMap_update hout, hline]
      exact (List.filter_sublist ..).filterMap stake
    · intro held
      have hleave : o.leave t = o.release := if_pos held
      have hline : o.line = t :: o'.line :=
        (Outbound.line_release held).trans
          (congrArg _ (hleave ▸ Outbound.line_congr holder queue).symm)
      rw [hline, List.nodup_cons] at hnodup
      rw [filterMap_update hnodup.1, hline, List.filterMap_cons, hk]

theorem LineStep.holder_eq (h : LineStep t o k o' k') {u : TaskId} (hne : u ≠ t)
    (hu : o.holder = some u) : o'.holder = some u := by
  have hne' : o.holder ≠ some t := by simpa [hu] using hne
  cases h with
  | stay k holder queue => rw [holder, hu]
  | join k holder queue => rw [holder, Outbound.request, hu]
  | go k held => exact absurd held hne'
  | quit k holder queue => rw [holder, Outbound.leave, if_neg hne', hu]

variable {config : Config} {c c' c₁ : Client} {choice : Choice} {task task' : Task}

/-- The tasks of a client and the line for its slot fit together. -/
structure Lined (c : Client) : Prop where
  placed : Placed c.shared.outbound c.stake?
  writing : ∀ (t : TaskId) x, c.tasks[t]? = some x → x.isWriting = true → c.holds t = true

theorem stake?_of_getElem? (ht : c.tasks[t]? = some task) : c.stake? t = task.stake? := by
  rw [stake?, ht]
  rfl

theorem stake?_of_isNew {x : Task} (h : x.isNew = true) : x.stake? = none := by
  unfold Task.isNew at h
  split at h <;> first | rfl | cases h

theorem isWriting_of_isNew {x : Task} (h : x.isNew = true) : x.isWriting = false := by
  unfold Task.isNew at h
  split at h <;> first | rfl | cases h

theorem stake?_stepped (h : Grows c c₁) (ht : t < c.tasks.length) (s : Shared) :
    stake? ⟨s, c₁.tasks.set t task'⟩ = Function.update c.stake? t task'.stake? :=
  h.view_stepped ht Task.stake? none fun _ => stake?_of_isNew

theorem SendStep.holds {text : String} {p : SendPhase} {g : Generation}
    (h : SendStep c t text p c' (.phase (.writing g))) : c'.holds t = true := by
  cases h with
  | begin held hsink => exact held

theorem CallStep.holds {spec : CallSpec} {p p' : CallPhase}
    (h : CallStep c t spec choice p c' (.phase p')) (hwriting : p'.isWriting = true) :
    c'.holds t = true := by
  cases p' with
  | sending id n p =>
    cases p with
    | writing g =>
      cases h with
      | look hp hp' => cases hp'
      | send _ _ h => exact h.holds
    | _ => cases hwriting
  | _ => cases hwriting

/-- Whoever begins to write has the slot. -/
theorem TaskStep.holds (h : TaskStep c t choice task c₁ task') (hwriting : task'.isWriting = true) :
    c₁.holds t = true := by
  cases h with
  | @calling f _ p next h =>
    rw [f.isWriting_next] at hwriting
    cases next with
    | phase p => exact h.holds hwriting
    | _ => cases hwriting
  | @replying g response _ p next h =>
    cases next with
    | phase p =>
      cases p with
      | writing g => exact h.holds
      | _ => cases hwriting
    | _ => cases hwriting
  | @opening f _ _ next h => cases f <;> rcases next with _ | ⟨_ | _⟩ <;> cases hwriting
  | @closing f _ _ next h => cases f <;> cases next <;> cases hwriting
  | @starting f _ _ next h => cases f <;> cases next <;> cases hwriting
  | @disconnecting g _ _ next h => cases next <;> cases hwriting
  | heart g h => cases h <;> cases hwriting
  | receive g h =>
    cases h with
    | handled id result => cases id <;> cases hwriting
    | _ => cases hwriting
  | _ => cases hwriting

/-- A step keeps the line, and changes it at its ends only. -/
theorem Lined.step (h : c.Lined) (ht : c.tasks[t]? = some task) (hd : task.isDiscard = false)
    (hstep : TaskStep c t choice task c₁ task') :
    Lined ⟨c₁.shared, c₁.tasks.set t task'⟩ ∧
      Passage (c.holds t = true) c.stakes (stakes ⟨c₁.shared, c₁.tasks.set t task'⟩)
        task.stake? task'.stake? := by
  have hgrows := hstep.grows hd
  have hline := hstep.line hd (h.writing t task ht)
  have hlt := (List.getElem?_eq_some_iff.1 ht).1
  obtain ⟨hplaced, hpassage⟩ := hline.placed h.placed (stake?_of_getElem? ht)
  rw [← stake?_stepped hgrows hlt c₁.shared] at hplaced hpassage
  refine ⟨⟨hplaced, fun u x hu hx => ?_⟩, ?_⟩
  · obtain ⟨rfl, rfl⟩ | ⟨hne, hu⟩ | ⟨-, -, hnew⟩ := hgrows.cases_task hu
    · exact hstep.holds hx
    · exact holds_iff.2 (hline.holder_eq hne (holds_iff.1 (h.writing u x hu hx)))
    · cases (isWriting_of_isNew hnew.1).symm.trans hx
  · rw [holds_iff]
    exact hpassage

@[simp] theorem stake?_spawn (c : Client) (request : Request) :
    (c.spawn request.task).stake? = c.stake? :=
  view_spawn c Task.stake? (by cases request <;> rfl)

@[simp] theorem stakes_spawn (c : Client) (request : Request) :
    (c.spawn request.task).stakes = c.stakes := by
  rw [stakes, stake?_spawn]
  rfl

theorem Reachable.lined (run : Reachable config c) (hkept : c.IsKept) : c.Lined := by
  induction run with
  | fresh =>
    refine ⟨⟨fun _ => rfl, List.nodup_nil, fun t => ?_⟩, fun t x ht => by cases ht⟩
    simp [Client.fresh, Shared.fresh, Outbound.line, stake?]
  | @move c c' m before h ih =>
    have hlined := ih (hkept.before h)
    cases apply_cases h with
    | start request =>
      refine ⟨stake?_spawn c request ▸ hlined.placed, fun t x ht hx => ?_⟩
      obtain ht | rfl := cases_spawn ht
      · exact hlined.writing t x ht hx
      · cases request <;> cases hx
    | register method handler registry => exact ⟨hlined.placed, hlined.writing⟩
    | cancel token => exact ⟨hlined.placed, hlined.writing⟩
    | step ht hstep => exact (hlined.step ht ((hkept.before h).not_discard ht) hstep).1

end Client
end DuplexRpc
