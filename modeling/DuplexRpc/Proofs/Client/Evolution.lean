import DuplexRpc.Client.Run
import DuplexRpc.Proofs.Pending.Settled

/-!
What any step may do to the rest of a client. The connects of others stay where they are; epochs and
generations never go back; and a generation that comes to be installed has a new number. So what was
taken out of the link once is never installed again.
-/
namespace DuplexRpc

structure Shared.Ages (s s' : Shared) : Prop where
  epoch : s.epoch ≤ s'.epoch
  generation : s.link.generation ≤ s'.link.generation
  installed : ∀ g, s'.link.installed = some g →
    s.link.installed = some g ∨ (s.link.generation < g ∧ g ≤ s'.link.generation)
  pending : s.pending.Leads s'.pending

theorem Shared.Ages.trans {s₁ s₂ s₃ : Shared} (h : s₁.Ages s₂) (h' : s₂.Ages s₃) : s₁.Ages s₃ where
  epoch := Nat.le_trans h.epoch h'.epoch
  generation := Nat.le_trans h.generation h'.generation
  installed g hg := by
    have hlower := h.generation
    have hupper := h'.generation
    rcases h'.installed g hg with hg | ⟨hlow, hhigh⟩
    · rcases h.installed g hg with hg | ⟨hlow, hhigh⟩
      · exact .inl hg
      · exact .inr ⟨hlow, Nat.le_trans hhigh hupper⟩
    · exact .inr ⟨Nat.lt_of_le_of_lt hlower hlow, hhigh⟩
  pending := h.pending.trans h'.pending

theorem Shared.Ages.quiet {s s' : Shared} (hepoch : s'.epoch = s.epoch)
    (hgeneration : s'.link.generation = s.link.generation)
    (hinstalled : s'.link.installed = s.link.installed) (hpending : s.pending.Leads s'.pending) :
    s.Ages s' :=
  ⟨Nat.le_of_eq hepoch.symm, Nat.le_of_eq hgeneration.symm, fun _ hg => .inl (hinstalled ▸ hg),
    hpending⟩

/-- A generation that is no longer installed does not come back. -/
theorem Shared.Ages.installed_ne {s s' : Shared} (h : s.Ages s') {g : Generation}
    (hle : g ≤ s.link.generation) (hne : s.link.installed ≠ some g) :
    s'.link.installed ≠ some g := by
  intro hg
  rcases h.installed g hg with hold | ⟨hlt, -⟩
  · exact hne hold
  · exact Nat.lt_irrefl g (Nat.lt_of_le_of_lt hle hlt)

theorem PendingTable.Leads.register {t t' : PendingTable} {id : String} {n : Nat}
    (h : t.register id = .ok (n, t')) : t.Leads t' := by
  refine ⟨[.register id], ?_⟩
  simp only [run, List.foldl_cons, List.foldl_nil, step, h]

theorem Response.settle_leads (r : Response) (t : PendingTable) : t.Leads (r.settle t) := by
  unfold settle
  split
  next id _ => exact .op t (.resolve id r.outcome)
  next => exact .refl t

namespace Client

structure Evolves (c c' : Client) : Prop where
  length : c.tasks.length ≤ c'.tasks.length
  connects : ∀ (u : TaskId) (p : ConnectPhase),
    c'.tasks[u]? = some (.connect p) ↔ c.tasks[u]? = some (.connect p)
  ages : c.shared.Ages c'.shared

theorem Evolves.trans {a b c : Client} (h : Evolves a b) (h' : Evolves b c) : Evolves a c where
  length := Nat.le_trans h.length h'.length
  connects u p := (h'.connects u p).trans (h.connects u p)
  ages := h.ages.trans h'.ages

/-- Neither the tasks nor the epoch nor the link have changed. -/
theorem Evolves.calm {c c' : Client} (htasks : c'.tasks = c.tasks)
    (hepoch : c'.shared.epoch = c.shared.epoch)
    (hgeneration : c'.shared.link.generation = c.shared.link.generation)
    (hinstalled : c'.shared.link.installed = c.shared.link.installed)
    (hpending : c.shared.pending.Leads c'.shared.pending) : Evolves c c' :=
  ⟨Nat.le_of_eq (by rw [htasks]), fun _ _ => by rw [htasks],
    .quiet hepoch hgeneration hinstalled hpending⟩

/-- Nor has the table of waiting calls. -/
theorem Evolves.quiet {c c' : Client} (htasks : c'.tasks = c.tasks)
    (hepoch : c'.shared.epoch = c.shared.epoch)
    (hgeneration : c'.shared.link.generation = c.shared.link.generation)
    (hinstalled : c'.shared.link.installed = c.shared.link.installed)
    (hpending : c'.shared.pending = c.shared.pending) : Evolves c c' :=
  .calm htasks hepoch hgeneration hinstalled (hpending ▸ .refl _)

theorem Evolves.refl (c : Client) : Evolves c c := .quiet rfl rfl rfl rfl rfl

theorem getElem?_append_connect {tasks added : List Task} (h : ∀ p, Task.connect p ∉ added)
    (u : TaskId) (p : ConnectPhase) :
    (tasks ++ added)[u]? = some (.connect p) ↔ tasks[u]? = some (.connect p) := by
  constructor
  · intro hu
    rw [List.getElem?_append] at hu
    split at hu
    · exact hu
    · exact absurd (List.mem_of_getElem? hu) (h p)
  · intro hu
    rw [List.getElem?_append_left (List.getElem?_eq_some_iff.1 hu).1, hu]

theorem epoch_install (c : Client) (epoch : Nat) :
    (c.install epoch).shared.epoch = c.shared.epoch := by
  unfold install
  dsimp only
  cases c.shared.link.installed <;> rfl

theorem pending_install (c : Client) (epoch : Nat) :
    (c.install epoch).shared.pending = c.shared.pending := by
  unfold install
  dsimp only
  cases c.shared.link.installed <;> rfl

theorem Evolves.install (c : Client) (epoch : Nat) : Evolves c (c.install epoch) := by
  refine ⟨by simp [Client.install], getElem?_append_connect (by simp),
    Nat.le_of_eq (epoch_install c epoch).symm, Nat.le_succ _, fun g hg => ?_,
    pending_install c epoch ▸ .refl _⟩
  cases hg
  exact .inr ⟨Nat.lt_succ_self _, Nat.le_refl _⟩

theorem Evolves.failAll (c : Client) : Evolves c (c.update Shared.failAll) :=
  .calm rfl rfl rfl rfl (.op _ (.failAll _))

theorem Evolves.leave (c : Client) (n : Nat) : Evolves c (c.leave n) :=
  .calm rfl rfl rfl rfl ((PendingTable.Leads.op _ (.dropReceiver n)).trans (.op _ (.dropGuard n)))

theorem Evolves.spawn (c : Client) {task : Task} (h : ∀ p, task ≠ .connect p) :
    Evolves c (c.spawn task) :=
  ⟨by simp [Client.spawn], getElem?_append_connect fun p hp => h p (List.mem_singleton.1 hp).symm,
    .quiet rfl rfl rfl (.refl _)⟩

variable {c c' : Client} {t : TaskId} {choice : Choice}

theorem sendStep_evolves {text : String} {p : SendPhase}
    {next : Next SendPhase (Except Failure Unit)}
    (h : c.sendStep t text choice p = some (c', next)) : Evolves c c' := by
  revert h
  fun_cases sendStep c t text choice p
  all_goals
    intro h
    cases h
  all_goals exact .quiet rfl rfl rfl rfl rfl

theorem openStep_evolves {epoch : Nat} {p : OpenPhase}
    {next : Next OpenPhase (Except Failure Unit)}
    (h : c.openStep t epoch choice p = some (c', next)) : Evolves c c' := by
  revert h
  fun_cases openStep c t epoch choice p
  all_goals
    intro h
    cases h
  all_goals first
    | exact .quiet rfl rfl rfl rfl rfl
    | exact .failAll c
    | exact (Evolves.install c epoch).trans (.quiet rfl rfl rfl rfl rfl)

theorem beginClose_evolves {p p' : ClosePhase} (h : c.beginClose p = some (c', p')) :
    Evolves c c' := by
  have hsame : c.tasks.length ≤ c.tasks.length := Nat.le_refl _
  cases p with
  | mark | publish d =>
    cases h
    exact .quiet rfl rfl rfl rfl rfl
  | bump =>
    cases h
    exact ⟨hsame, fun _ _ => Iff.rfl, Nat.le_succ _, Nat.le_refl _, fun _ => .inl, .refl _⟩
  | detach =>
    cases h
    exact ⟨hsame, fun _ _ => Iff.rfl, Nat.le_refl _, Nat.le_succ _, nofun, .refl _⟩
  | signal d =>
    cases h
    unfold signalDetached
    cases d.installed <;> exact .quiet rfl rfl rfl rfl rfl
  | _ => cases h

theorem closeStep_evolves {p : ClosePhase} {next : Next ClosePhase Unit}
    (h : c.closeStep t choice p = some (c', next)) : Evolves c c' := by
  revert h
  fun_cases closeStep c t choice p
  all_goals intro h
  all_goals first
    | (obtain ⟨⟨c₁, p₁⟩, h₁, h⟩ := Option.map_eq_some_iff.1 h
       cases h
       exact beginClose_evolves h₁)
    | cases h
  all_goals first
    | exact .quiet rfl rfl rfl rfl rfl
    | exact .failAll c

/-- A step of a part of the task carries over to the task. -/
theorem Evolves.of_map {P Q : Type} {part : Option (Client × P)} {wrap : Client × P → Client × Q}
    {q : Q} (h : part.map wrap = some (c', q))
    (hpart : ∀ (c₁ : Client) (p : P), part = some (c₁, p) → Evolves c c₁)
    (hwrap : ∀ r, (wrap r).1 = r.1) : Evolves c c' := by
  obtain ⟨⟨c₁, p⟩, hp, hq⟩ := Option.map_eq_some_iff.1 h
  have hc : c₁ = c' := (hwrap (c₁, p)).symm.trans (congrArg Prod.fst hq)
  exact hc ▸ hpart c₁ p hp

theorem connectStep_evolves {p p' : ConnectPhase} (h : c.connectStep t choice p = some (c', p')) :
    Evolves c c' := by
  revert h
  fun_cases connectStep c t choice p
  all_goals intro h
  all_goals first
    | exact .of_map h (fun _ _ => closeStep_evolves) fun _ => by dsimp only; split <;> rfl
    | exact .of_map h (fun _ _ => openStep_evolves) fun _ => by dsimp only; split <;> rfl
    | cases h
  all_goals exact .quiet rfl rfl rfl rfl rfl

theorem callStep_evolves {spec : CallSpec} {p : CallPhase} {next : Next CallPhase (Option Outcome)}
    (h : c.callStep t spec choice p = some (c', next)) : Evolves c c' := by
  revert h
  fun_cases callStep c t spec choice p
  all_goals intro h
  case case9 =>
    -- the status has settled; the wait only reads it
    obtain ⟨admitted, -, h⟩ := Option.map_eq_some_iff.1 h
    cases h
    exact .refl c
  all_goals first
    | exact .of_map h (fun _ _ => sendStep_evolves) fun _ => by dsimp only; split <;> rfl
    | cases h
  all_goals first
    | exact .quiet rfl rfl rfl rfl rfl
    | exact .leave c _
    | exact .calm rfl rfl rfl rfl (.register (by assumption))

theorem startStep_evolves {p : StartPhase} {next : Next StartPhase Unit}
    (h : c.startStep choice p = some (c', next)) : Evolves c c' := by
  revert h
  fun_cases startStep c choice p
  all_goals
    intro h
    cases h
  all_goals first
    | exact .quiet rfl rfl rfl rfl rfl
    | exact .spawn c (by simp)

theorem disconnectStep_evolves {g : Generation} {p : DisconnectPhase}
    {next : Next DisconnectPhase Unit} (h : c.disconnectStep t g choice p = some (c', next)) :
    Evolves c c' := by
  revert h
  fun_cases disconnectStep c t g choice p
  all_goals intro h
  all_goals first
    | exact .of_map h (fun _ _ => startStep_evolves) fun _ => by dsimp only; split <;> rfl
    | cases h
  all_goals first
    | exact .quiet rfl rfl rfl rfl rfl
    | exact .failAll c
    | exact ⟨Nat.le_refl _, fun _ _ => Iff.rfl, Nat.le_refl _, Nat.le_refl _, nofun, .refl _⟩

theorem reconnectStep_evolves {epoch : Nat} {p p' : ReconnectPhase}
    (h : c.reconnectStep t epoch choice p = some (c', p')) : Evolves c c' := by
  revert h
  fun_cases reconnectStep c t epoch choice p
  all_goals intro h
  all_goals first
    | exact .of_map h (fun _ _ => openStep_evolves) fun _ => by dsimp only; split <;> rfl
    | exact .of_map h (fun _ _ => startStep_evolves) fun _ => by dsimp only; split <;> rfl
    | obtain ⟨rfl, -⟩ := Prod.mk.inj (Option.some.inj h)
    | cases h
  all_goals exact .quiet rfl rfl rfl rfl rfl

theorem receiveText_evolves (c : Client) (text : String) : Evolves c (c.receiveText text).1 := by
  fun_cases receiveText c text
  all_goals first
    | exact .quiet rfl rfl rfl rfl rfl
    | exact .calm rfl rfl rfl rfl (Response.settle_leads _ _)

theorem receiveStep_evolves {g : Generation} {p p' : ReceivePhase}
    (h : c.receiveStep t g choice p = some (c', p')) : Evolves c c' := by
  revert h
  fun_cases receiveStep c t g choice p
  all_goals intro h
  case case1 text =>
    have hc := receiveText_evolves c text
    rwa [Option.some.inj h] at hc
  all_goals first
    | exact .of_map h (fun _ _ => sendStep_evolves) fun _ => by dsimp only; split <;> rfl
    | exact .of_map h (fun _ _ => disconnectStep_evolves) fun _ => by dsimp only; split <;> rfl
    | cases h
  all_goals exact .quiet rfl rfl rfl rfl rfl

theorem heartStep_evolves {g : Generation} {p p' : HeartPhase}
    (h : c.heartStep t g choice p = some (c', p')) : Evolves c c' := by
  revert h
  fun_cases heartStep c t g choice p
  all_goals intro h
  all_goals first
    | exact .of_map h (fun _ _ => callStep_evolves) fun _ => by dsimp only; split <;> rfl
    | cases h
  all_goals exact .quiet rfl rfl rfl rfl rfl

theorem Evolves.of_set {task : Task} (task' : Task) (ht : c.tasks[t]? = some task)
    (htask : ∀ p, task ≠ .connect p) (htask' : ∀ p, task' ≠ .connect p)
    (hc : c'.tasks = c.tasks.set t task') (hages : c.shared.Ages c'.shared) :
    Evolves c c' := by
  refine ⟨by simp [hc], fun u p => ?_, hages⟩
  rw [hc]
  by_cases hu : u = t
  · subst hu
    rw [ht, List.getElem?_set_self (List.getElem?_eq_some_iff.1 ht).1]
    simp [htask, htask']
  · rw [List.getElem?_set_ne (Ne.symm hu)]

/-- An abort ends a receiver or a heart, and no other task. -/
theorem Evolves.kill (c : Client) (t : TaskId) : Evolves c (c.kill t) := by
  unfold Client.kill
  dsimp only
  split
  next g p h =>
    exact .of_set (.receive g .done) h (by simp) (by simp) rfl (.quiet rfl rfl rfl (.refl _))
  next g p h =>
    have hleave (n : Nat) : Evolves c ((c.update (·.leave t)).leave n) :=
      Evolves.trans (b := c.update (·.leave t)) (.quiet rfl rfl rfl rfl rfl) (.leave _ n)
    refine .of_set (.heart g .done) h (by simp) (by simp) ?_ ?_
    · split <;> rfl
    · split <;> first
        | exact (hleave _).ages
        | exact .quiet rfl rfl rfl (.refl _)
  next => exact .quiet rfl rfl rfl rfl rfl

theorem Evolves.foldl_kill (tasks : List TaskId) (c : Client) :
    Evolves c (tasks.foldl Client.kill c) := by
  induction tasks generalizing c with
  | nil => exact .refl c
  | cons t tasks ih => exact (Evolves.kill c t).trans (ih _)

theorem discardStep_evolves {p p' : DiscardPhase} (h : c.discardStep choice p = some (c', p')) :
    Evolves c c' := by
  unfold discardStep at h
  cases p with
  | closing q =>
    dsimp only at h
    split at h
    · cases h
      exact .refl c
    · exact .of_map h (fun _ _ => beginClose_evolves) fun _ => rfl
    · cases h
  | abort tasks =>
    dsimp only at h
    split at h
    · cases h
      exact .foldl_kill tasks c
    · cases h
  | fail =>
    dsimp only at h
    split at h
    · cases h
      exact .failAll c
    · cases h
  | done => cases h

theorem taskStep_evolves {task task' : Task} (h : c.taskStep t choice task = some (c', task')) :
    Evolves c c' := by
  cases task with
  | connect p => exact .of_map h (fun _ _ => connectStep_evolves) fun _ => rfl
  | close p =>
    cases p with
    | none => cases h
    | some p => exact .of_map h (fun _ _ => closeStep_evolves) fun _ => by dsimp only; split <;> rfl
  | call spec p =>
    exact .of_map h (fun _ _ => callStep_evolves) fun _ => by dsimp only; split <;> rfl
  | receive g p => exact .of_map h (fun _ _ => receiveStep_evolves) fun _ => rfl
  | heart g p => exact .of_map h (fun _ _ => heartStep_evolves) fun _ => rfl
  | reconnect epoch p => exact .of_map h (fun _ _ => reconnectStep_evolves) fun _ => rfl
  | discard p => exact .of_map h (fun _ _ => discardStep_evolves) fun _ => rfl

end Client
end DuplexRpc
