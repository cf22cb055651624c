import DuplexRpc.Proofs.Client.Line

/-!
The order of closes and openings. A close takes its place in the line in the turn in which it ends
the epoch and takes the link out; so no opening that may still install a link stands before it, and
the sink that it takes later is not that of a link that has been installed meanwhile. Between turns
the slot has the sink of the link.
-/
namespace DuplexRpc

structure Shared.Ordered (s : Shared) (line : List Stake) : Prop where
  vacant : .closer ∈ line → s.link.installed = none
  behind : line.Pairwise fun a b => a = .opener s.epoch → b ≠ .closer
  epochs : ∀ epoch, .opener epoch ∈ line → epoch ≤ s.epoch
  sink : ∀ g, s.link.installed = some g → s.outbound.sink = some g

/-- Every opening in the line is of an older epoch. -/
def Shared.Outdates (s : Shared) (line : List Stake) : Prop :=
  ∀ epoch, .opener epoch ∈ line → epoch < s.epoch

def ClosePhase.Ordered (s : Shared) (line : List Stake) : ClosePhase → Prop
  | detach => s.Ordered line ∧ s.Outdates line
  | publish _ | signal _ | request _ =>
    s.Ordered line ∧ s.Outdates line ∧ s.link.installed = none
  | _ => s.Ordered line

def Task.Ordered (s : Shared) (line : List Stake) : Task → Prop
  | connect (.closing _ p) | connect (.failing p _) => p.Ordered s line
  | close (some p) => p.Ordered s line
  | _ => s.Ordered line

variable {s s' : Shared} {l l' : List Stake}

theorem Shared.Ordered.sublist (h : s.Ordered l) (hl : l'.Sublist l) : s.Ordered l' :=
  ⟨fun hmem => h.vacant (hl.subset hmem), h.behind.sublist hl,
    fun e hmem => h.epochs e (hl.subset hmem), h.sink⟩

theorem Shared.Ordered.congr (h : s.Ordered l) (hepoch : s'.epoch = s.epoch)
    (hinstalled : s'.link.installed = s.link.installed)
    (hsink : s'.outbound.sink = s.outbound.sink) : s'.Ordered l :=
  ⟨fun hmem => hinstalled ▸ h.vacant hmem, hepoch ▸ h.behind, hepoch ▸ h.epochs,
    fun g hg => hsink ▸ h.sink g (hinstalled ▸ hg)⟩

/-- Only a close has to look who stands before it. -/
theorem Shared.Ordered.join (h : s.Ordered l) {k : Stake} (hk : k ≠ .closer)
    (hepoch : ∀ epoch, k = .opener epoch → epoch ≤ s.epoch) : s.Ordered (l ++ [k]) where
  vacant hmem := h.vacant (by simpa [Ne.symm hk] using hmem)
  behind := by
    refine List.pairwise_append.2 ⟨h.behind, List.pairwise_singleton .., fun a _ b hb _ => ?_⟩
    exact List.mem_singleton.1 hb ▸ hk
  epochs epoch hmem := by
    obtain hmem | hmem := List.mem_append.1 hmem
    · exact h.epochs epoch hmem
    · exact hepoch epoch (List.mem_singleton.1 hmem).symm
  sink := h.sink

namespace Client

variable {config : Config} {c c' c₁ : Client} {t u : TaskId} {choice : Choice}
  {turn : Option TaskId} {task task' x : Task}

theorem ordered_of_rests (h : rests x = true) (s : Shared) (l : List Stake) :
    x.Ordered s l ↔ s.Ordered l := by
  cases x with
  | connect p =>
    cases p with
    | closing url p | failing p failure => cases p <;> first | exact .rfl | cases h
    | _ => exact .rfl
  | close p =>
    cases p with
    | none => exact .rfl
    | some p => cases p <;> first | exact .rfl | cases h
  | _ => exact .rfl

/-- Every phase leaves the order as it is, and some say more. -/
theorem ordered_of_task (h : x.Ordered s l) : s.Ordered l := by
  cases x with
  | connect p =>
    cases p with
    | closing url p | failing p failure => cases p <;> first | exact h | exact h.1
    | _ => exact h
  | close p =>
    cases p with
    | none => exact h
    | some p => cases p <;> first | exact h | exact h.1
  | _ => exact h

@[simp] theorem CloseFrame.ordered_next (f : CloseFrame) (next : Next ClosePhase Unit) :
    (f.next next).Ordered s l ↔ next.elim (·.Ordered s l) (s.Ordered l) := by
  cases f <;> cases next <;> exact .rfl

@[simp] theorem OpenFrame.ordered_next (f : OpenFrame)
    (next : Next OpenPhase (Except Failure Unit)) :
    (f.next next).Ordered s l ↔ s.Ordered l := by
  cases f <;> rcases next with p | ⟨_ | _⟩ <;> exact .rfl

@[simp] theorem CallFrame.ordered_next (f : CallFrame) (next : Next CallPhase (Option Outcome)) :
    (f.next next).Ordered s l ↔ s.Ordered l := by
  fun_cases CallFrame.next f next <;> exact .rfl

@[simp] theorem StartFrame.ordered_next (f : StartFrame) (next : Next StartPhase Unit) :
    (f.next next).Ordered s l ↔ s.Ordered l := by
  cases f <;> cases next <;> exact .rfl

theorem CloseStep.ordered {p : ClosePhase} {next : Next ClosePhase Unit}
    (h : CloseStep c t p c' next)
    (hl : Passage (c.holds t = true) l l' p.stake? (next.elim ClosePhase.stake? none))
    (hp : p.Ordered c.shared l) :
    next.elim (·.Ordered c'.shared l') (c'.shared.Ordered l') := by
  cases h with
  | bump =>
    cases hl
    have houtdated : ∀ epoch, Stake.opener epoch ∈ l → epoch < c.shared.epoch + 1 :=
      fun epoch hmem => Nat.lt_succ_of_le (hp.epochs epoch hmem)
    refine ⟨⟨hp.vacant, hp.behind.imp_of_mem fun ha _ _ heq => ?_,
      fun epoch hmem => Nat.le_of_lt (houtdated epoch hmem), hp.sink⟩, houtdated⟩
    exact absurd (houtdated _ (heq ▸ ha)) (Nat.lt_irrefl _)
  | detach =>
    cases hl
    exact ⟨⟨fun _ => rfl, hp.1.behind, hp.1.epochs, nofun⟩, hp.2, rfl⟩
  | publish d | signal d =>
    cases hl
    exact ⟨hp.1.congr rfl rfl rfl, hp.2⟩
  | ask tasks =>
    cases hl
    obtain ⟨hordered, houtdated, hvacant⟩ := hp
    refine ⟨fun _ => hvacant, ?_, fun epoch hmem => ?_, fun g hg => by cases hvacant ▸ hg⟩
    · refine List.pairwise_append.2
        ⟨hordered.behind, List.pairwise_singleton .., fun a ha _ _ heq => ?_⟩
      exact absurd (houtdated _ (heq ▸ ha)) (Nat.lt_irrefl _)
    · exact hordered.epochs epoch (by simpa using hmem)
  | take tasks held =>
    have hpassage : l'.Sublist l ∧ (c.holds t = true → l = .closer :: l') := by
      revert hl
      cases c.shared.outbound.sink <;> exact id
    have hvacant : c.shared.link.installed = none :=
      hp.vacant (hpassage.2 held ▸ List.mem_cons_self ..)
    have hordered := hp.sublist hpassage.1
    have hafter : (c.update fun s =>
        { s with outbound := { s.outbound with sink := none } }.release).shared.Ordered l' :=
      ⟨hordered.vacant, hordered.behind, hordered.epochs, fun g hg => by cases hvacant ▸ hg⟩
    cases c.shared.outbound.sink <;> exact hafter
  | _ =>
    cases hl
    exact hp.congr rfl rfl rfl

theorem SendStep.ordered {text : String} {k : Stake} {p : SendPhase}
    {next : Next SendPhase (Except Failure Unit)} (h : SendStep c t text p c' next)
    (hk : k = .caller ∨ k = .replier)
    (hl : Passage (c.holds t = true) l l' (p.stake? k) (next.elim (·.stake? k) none))
    (hs : c.shared.Ordered l) : c'.shared.Ordered l' := by
  cases h with
  | ask =>
    cases hl
    have hjoin := hs.join (k := k) (by rcases hk with rfl | rfl <;> nofun)
      (by rcases hk with rfl | rfl <;> nofun)
    exact hjoin.congr rfl rfl (sink_request ..)
  | begin held hsink =>
    cases hl
    exact hs
  | _ => exact (hs.sublist hl.1).congr rfl rfl rfl

theorem CallStep.ordered {spec : CallSpec} {p : CallPhase} {next : Next CallPhase (Option Outcome)}
    (h : CallStep c t spec choice p c' next)
    (hl : Passage (c.holds t = true) l l' p.stake? (next.elim CallPhase.stake? none))
    (hs : c.shared.Ordered l) : c'.shared.Ordered l' := by
  cases h with
  | look hp hp' =>
    rw [stake?_of_isOutside hp, Next.elim, stake?_of_isOutside hp'] at hl
    cases hl
    exact hs
  | turnedAway hp | enter hp =>
    rw [stake?_of_isOutside hp] at hl
    cases hl
    exact hs
  | send id n h | sent id n h | unsent id n h => exact h.ordered (.inl rfl) hl hs
  | @dropSending id n p hp dropped =>
    have hl' : l'.Sublist l := by
      cases p with
      | request => exact absurd rfl hp
      | lock | writing g => exact hl.1
    exact (hs.sublist hl').congr rfl rfl (Outbound.sink_leave ..)
  | _ =>
    cases hl
    exact hs.congr rfl rfl rfl

theorem OpenStep.ordered {epoch : Nat} {p : OpenPhase} {next : Next OpenPhase (Except Failure Unit)}
    (h : OpenStep c t epoch p c' next) (hepoch : epoch ≤ c.shared.epoch)
    (hl : Passage (c.holds t = true) l l' (p.stake? epoch) (next.elim (·.stake? epoch) none))
    (hs : c.shared.Ordered l) : c'.shared.Ordered l' := by
  cases h with
  | look hp hp' =>
    rw [stake?_of_isEarly hp, Next.elim, stake?_of_isEarly hp'] at hl
    cases hl
    exact hs
  | fail failure hp =>
    rw [stake?_of_isEarly hp] at hl
    cases hl
    exact hs
  | ask =>
    cases hl
    have hjoin := hs.join (k := .opener epoch) (by rintro ⟨⟩) (by rintro e ⟨⟩; exact hepoch)
    exact hjoin.congr rfl rfl (sink_request ..)
  | late held => exact (hs.sublist hl.1).congr rfl rfl (Outbound.sink_leave ..)
  | stale held h => exact (hs.sublist hl.1).congr rfl rfl rfl
  | install held h =>
    have hpassage : l'.Sublist l ∧ (c.holds t = true → l = .opener epoch :: l') := by
      revert hl
      cases c.shared.link.installed <;> exact id
    have hcurrent : c.shared.epoch = epoch := by simpa [isStale] using (Bool.or_eq_false_iff.1 h).2
    have hordered := hs.sublist hpassage.1
    refine ⟨fun hmem => ?_, hordered.behind, hordered.epochs, fun g hg => hg⟩
    -- no close stands behind the opening that comes to its section
    have hbehind := hs.behind
    rw [hpassage.2 held, List.pairwise_cons] at hbehind
    exact absurd rfl (hbehind.1 _ hmem (by rw [hcurrent]))
  | _ =>
    cases hl
    exact hs.congr rfl rfl rfl

theorem DisconnectStep.ordered {g : Generation} {p : DisconnectPhase}
    {next : Next DisconnectPhase Unit} (h : DisconnectStep c t g p c' next)
    (hgone : p ≠ .detach → c.shared.link.installed ≠ some g)
    (hl : Passage (c.holds t = true) l l' p.stake? (next.elim DisconnectPhase.stake? none))
    (hs : c.shared.Ordered l) : c'.shared.Ordered l' := by
  cases h with
  | detach hold hg =>
    cases hl
    exact ⟨fun _ => rfl, hs.behind, hs.epochs, nofun⟩
  | ask closed =>
    cases hl
    exact (hs.join (k := .pass) nofun nofun).congr rfl rfl (sink_request ..)
  | clear closed held =>
    have hordered := hs.sublist hl.1
    refine ⟨hordered.vacant, hordered.behind, hordered.epochs, fun g' hg' => ?_⟩
    have hsink := hordered.sink g' hg'
    have hne : g' ≠ g := by
      rintro rfl
      exact hgone nofun hg'
    have hsink' : c.shared.outbound.sink ≠ some g := by simpa [hsink] using hne
    exact (if_neg hsink').trans hsink
  | _ =>
    cases hl
    exact hs.congr rfl rfl rfl

/-- The order as an assertion about cooperative runs. -/
def order : Assertion :=
  ⟨fun c => c.shared.Ordered c.stakes, fun _ x c => x.Ordered c.shared c.stakes⟩

theorem Reachable.epoch_le_of_opening (run : Reachable config c) (f : OpenFrame) {p : OpenPhase}
    (ht : c.tasks[t]? = some (f.next (.phase p))) : f.epoch ≤ c.shared.epoch := by
  cases f with
  | connect epoch => exact run.epoch_le ht rfl
  | reconnect epoch => exact run.reconnect_epoch_le ht

theorem TaskStep.ordered (h : TaskStep c t choice task c₁ task') (run : Reachable config c)
    (ht : c.tasks[t]? = some task) (hd : task.isDiscard = false)
    (hl : Passage (c.holds t = true) l l' task.stake? task'.stake?)
    (hx : task.Ordered c.shared l) : task'.Ordered c₁.shared l' := by
  cases h with
  | opening f h =>
    rw [f.stake?_next, f.stake?_next] at hl
    simpa using h.ordered (run.epoch_le_of_opening f ht) hl (by simpa using hx)
  | closing f h =>
    rw [f.stake?_next, f.stake?_next] at hl
    simpa using h.ordered hl (by simpa using hx)
  | calling f h =>
    rw [f.stake?_next, f.stake?_next] at hl
    simpa using h.ordered hl (by simpa using hx)
  | starting f h =>
    rw [f.stake?_next, f.stake?_next] at hl
    cases hl
    have hs := (f.ordered_next (.phase _)).1 hx
    refine (f.ordered_next _).2 ?_
    cases h <;> exact hs.congr rfl rfl rfl
  | @disconnecting g _ p next h =>
    rw [stake?_passNext, stake?_passNext] at hl
    have hs := h.ordered (fun hp => (run.gone_of_pass ht hp).2) hl hx
    cases next <;> exact hs
  | @replying g response _ p next h =>
    rw [stake?_replyNext, stake?_replyNext] at hl
    have hs := h.ordered (.inr rfl) hl hx
    cases next <;> exact hs
  | connect h =>
    cases h <;> cases hl <;> exact hx.congr rfl rfl rfl
  | receive g h =>
    cases h with
    | handled id result => cases id <;> cases hl <;> exact hx
    | _ =>
      cases hl
      exact hx.congr rfl rfl rfl
  | heart g h => cases h <;> cases hl <;> exact hx.congr rfl rfl rfl
  | reconnect epoch h =>
    cases h with
    | look hp hp' =>
      rw [stake?_of_isLooping hp, stake?_of_isLooping hp'] at hl
      cases hl
      exact hx
    | leave hp h =>
      rw [stake?_of_isLooping hp] at hl
      cases hl
      exact hx
    | _ =>
      cases hl
      exact hx.congr rfl rfl rfl
  | discard h => cases hd

theorem resting_order : order.Resting := fun _ hrests => ordered_of_rests hrests _ _

theorem stable_order (config : Config) : order.Stable config fun _ _ => True where
  fresh := ⟨nofun, List.Pairwise.nil, nofun, nofun⟩
  resting := resting_order
  outer _ h _ hm hs := by
    cases apply_cases h with
    | start request =>
      change Shared.Ordered _ (stakes _)
      rw [stakes_spawn]
      exact hs.congr rfl rfl rfl
    | step ht hstep => exact absurd rfl (hm _ _)
    | _ => exact hs.congr rfl rfl rfl
  step run hkept _ ht h hx := by
    have run := run.cooperative.reachable
    have hd := hkept.not_discard ht
    exact h.ordered run ht hd ((run.lined hkept).step ht hd h).2 hx

/-- Between turns the slot has the sink of the link. -/
theorem Cooperative.ordered (run : Cooperative config turn c) (hkept : c.IsKept) :
    order.Holds turn c :=
  (stable_order config).holds run.guided hkept

theorem Cooperative.shared_ordered (run : Cooperative config turn c) (hkept : c.IsKept) :
    c.shared.Ordered c.stakes := by
  have hordered := run.ordered hkept
  cases turn with
  | none => exact hordered
  | some t =>
    obtain ⟨x, -, hx⟩ := hordered
    exact ordered_of_task hx

end Client
end DuplexRpc
