import DuplexRpc.Proofs.Client.Orderly

/-!
In an orderly run one link comes after the other: nobody installs a link beside another one, and
nobody who stands in the line for the old one is still there when the new one is installed. Each
step is shown to keep what the others find.
-/
namespace DuplexRpc.Client

variable {config : Config} {c c' c₁ : Client} {t u : TaskId} {choice : Choice}
  {turn : Option TaskId} {task task' x y : Task} {m : Move} {s : Shared} {l : List Stake}

/-- What a step of one task, to this state and this line, owes to the others. -/
structure Spares (c : Client) (s : Shared) (l : List Stake) (t : TaskId) : Prop where
  closed : ∀ (u : TaskId) x, u ≠ t → c.tasks[u]? = some x → x.isSwitching = true →
    c.shared.closed = true → s.closed = true
  vacant : ∀ (u : TaskId) x, u ≠ t → c.tasks[u]? = some x → x.isSwitching = true →
    c.shared.closed = true ∨ c.shared.status = .connecting → Vacant c.stakes → Vacant l
  pending : ∀ (u : TaskId) x, u ≠ t → c.tasks[u]? = some x → x.isPending s.epoch = true →
    s.epoch = c.shared.epoch ∧ s.status = c.shared.status ∧ (x.isSwitching = true →
      s.closed = c.shared.closed ∧ s.link.installed = c.shared.link.installed)
  down : .pass ∈ c.stakes → c.shared.IsDown → s.IsDown
  line : l.Pairwise (Behind s.epoch)

theorem rests_close {p : ClosePhase} (h : rests (.close (some p)) = true) :
    p = .mark ∨ ClosePhase.waits false (fun _ => false) p = true := by
  cases p <;> first | exact .inl rfl | exact .inr h

section Resting

variable {calm : Prop} {epoch : Nat}

theorem Spares.fits_closing {p : ClosePhase} (h : Spares c s l t) (hut : u ≠ t)
    (hu : c.tasks[u]? = some x) (hx : x.isSwitching = true)
    (hrest : p = .mark ∨ ClosePhase.waits false (fun _ => false) p = true)
    (hp : p.Fits c.shared c.stakes c.Calm) : p.Fits s l calm := by
  have hclosed := h.closed u x hut hu hx
  have hvacant (hclosed : c.shared.closed = true) := h.vacant u x hut hu hx (.inl hclosed)
  cases p with
  | mark => trivial
  | lock tasks => exact hclosed hp
  | shaking g tasks | joining tasks => exact ⟨hclosed hp.1, hvacant hp.1 hp.2⟩
  | _ => obtain hrest | hrest := hrest <;> cases hrest

theorem Spares.connects (h : Spares c s l t) (hut : u ≠ t) (hu : c.tasks[u]? = some x)
    (hx : x.isSwitching = true) (hpending : x.isPending s.epoch = true)
    (hconnects : c.shared.Connects c.stakes epoch) : s.Connects l epoch := by
  obtain ⟨hepoch, hstatus, hlink⟩ := h.pending u x hut hu hpending
  obtain ⟨hclosed, hinstalled⟩ := hlink hx
  exact ⟨hconnects.epoch.trans hepoch.symm, hclosed.trans hconnects.closed,
    hstatus.trans hconnects.status, hinstalled.trans hconnects.unlinked,
    h.vacant u x hut hu hx (.inr hconnects.status) hconnects.vacant⟩

theorem Spares.retries (h : Spares c s l t) (hut : u ≠ t) (hu : c.tasks[u]? = some x)
    (hpending : epoch = s.epoch → x.isPending s.epoch = true)
    (hretries : c.shared.Retries epoch) : s.Retries epoch := by
  intro hepoch
  obtain ⟨hsame, hstatus, -⟩ := h.pending u x hut hu (hpending hepoch)
  exact hstatus.trans (hretries (hepoch.trans hsame))

theorem Spares.fits (h : Spares c s l t) (hlined : c.Lined) (hut : u ≠ t)
    (hu : c.tasks[u]? = some x) (hrest : rests x = true)
    (hx : x.Fits c.shared c.stakes c.Calm) : x.Fits s l calm := by
  cases x with
  | connect p =>
    cases p with
    | closing url p | failing p failure => exact h.fits_closing hut hu rfl (.inr hrest) hx
    | opening epoch p => cases p <;> first | exact h.connects hut hu rfl rfl hx | cases hrest
    | _ => trivial
  | close p =>
    cases p with
    | none => trivial
    | some p => exact h.fits_closing hut hu rfl (rests_close hrest) hx
  | receive g p =>
    cases p with
    | disconnecting p =>
      cases p with
      | detach => trivial
      | lock closed => exact h.down (hlined.mem_stakes hu rfl) hx
      | _ => cases hrest
    | _ => trivial
  | reconnect epoch p =>
    cases p with
    | opening p =>
      cases p <;> first
        | exact h.retries hut hu
            (fun hepoch => by simp [Task.isPending, OpenPhase.isPending, hepoch]) hx
        | cases hrest
    | _ =>
      first
        | trivial
        | exact h.retries hut hu
            (fun hepoch => by simp [Task.isPending, ReconnectPhase.isLooping, hepoch]) hx
  | _ => trivial

end Resting

/-- A step that changes nothing but the line, where it joins meekly if at all, spares the others. -/
theorem Spares.quiet {held : Prop} {k k' : Option Stake} (h : c.InOrder)
    (hs : c.shared.Alike s) (hl : Passage held c.stakes l k k')
    (hk : k = none → ∀ j, k' = some j → j.isMeek = true) : Spares c s l t := by
  obtain ⟨hepoch, hclosed, hstatus, hinstalled⟩ := hs
  refine ⟨fun _ _ _ _ _ => hclosed ▸ id, fun _ _ _ _ _ _ hvacant => ?_,
    fun _ _ _ _ _ => ⟨hepoch, hstatus, fun _ => ⟨hclosed, hinstalled⟩⟩, fun _ hdown => ?_, ?_⟩
  · obtain hsub | ⟨j, hnone, hj, hjoin⟩ := hl.sublist_or_join
    · exact Vacant.sublist hvacant hsub
    · exact hjoin ▸ Vacant.join hvacant (hk hnone j hj)
  · rwa [Shared.IsDown, hstatus]
  · rw [hepoch]
    obtain hsub | ⟨j, hnone, hj, hjoin⟩ := hl.sublist_or_join
    · exact h.line.sublist hsub
    · exact hjoin ▸ pairwise_join h.line fun a _ => Behind.of_isMeek (hk hnone j hj)

theorem Calm.of_others {added : List Task}
    (hothers : ∀ (u : TaskId) x, u ≠ t → c.tasks[u]? = some x →
      x.isPending c₁.shared.epoch = false)
    (htask : task'.isPending c₁.shared.epoch = false) (htasks : c₁.tasks = c.tasks ++ added)
    (hadded : ∀ x ∈ added, x.isPending c₁.shared.epoch = false) :
    Calm ⟨c₁.shared, c₁.tasks.set t task'⟩ := by
  intro u x hu
  obtain ⟨rfl, rfl⟩ | ⟨hut, hu⟩ | ⟨-, -, hnew⟩ := cases_set_append (htasks ▸ hu)
  · exact htask
  · exact hothers u x hut hu
  · exact hadded x (List.mem_of_getElem? hnew)

theorem Calm.kept (h : c.Calm) (hepoch : c₁.shared.epoch = c.shared.epoch)
    (htask : task'.isPending c₁.shared.epoch = false) (htasks : c₁.tasks = c.tasks) :
    Calm ⟨c₁.shared, c₁.tasks.set t task'⟩ :=
  .of_others (fun u x _ hu => hepoch ▸ h u x hu) htask (htasks.trans (List.append_nil _).symm)
    (List.forall_mem_nil _)

theorem eq_of_isPending {epoch e : Nat} {q : ReconnectPhase}
    (h : (Task.reconnect e q).isPending epoch = true) : e = epoch := by
  cases q with
  | opening q =>
    simp only [Task.isPending, Bool.and_eq_true, beq_iff_eq] at h
    exact h.1
  | _ =>
    simp only [Task.isPending, Bool.and_eq_true, beq_iff_eq] at h
    exact h.1

theorem eq_reconnect_of_isPending {epoch : Nat} (h : x.isPending epoch = true)
    (hx : x.isSwitching = false) : ∃ q, x = .reconnect epoch q := by
  cases x with
  | connect p => cases p <;> first | cases h | cases hx
  | reconnect e q => exact ⟨q, by rw [eq_of_isPending h]⟩
  | _ => cases h

section Closing

variable {p : ClosePhase} {next : Next ClosePhase Unit}

/-- A close that is under way spares the others, if nobody else switches. -/
theorem CloseStep.spares (h : CloseStep c t p c₁ next) (hin : c.InOrder)
    (hl : Passage (c.holds t = true) c.stakes l p.stake? (next.elim ClosePhase.stake? none))
    (hsole : ∀ (u : TaskId) x, u ≠ t → c.tasks[u]? = some x → x.isSwitching = false)
    (hordered : p.Ordered c.shared c.stakes) (hfit : p.Fits c.shared c.stakes c.Calm)
    (hepochs : ∀ (u : TaskId) e q, c.tasks[u]? = some (.reconnect e q) → e ≤ c.shared.epoch) :
    Spares c c₁.shared l t := by
  have hcontra {P : Prop} {u : TaskId} {x : Task} (hut : u ≠ t) (hu : c.tasks[u]? = some x)
      (hx : x.isSwitching = true) : P := by cases (hsole u x hut hu).symm.trans hx
  have hspares {s : Shared} {l : List Stake}
      (hpending : ∀ (u : TaskId) x, u ≠ t → c.tasks[u]? = some x → x.isPending s.epoch = true →
        s.epoch = c.shared.epoch ∧ s.status = c.shared.status)
      (hdown : .pass ∈ c.stakes → c.shared.IsDown → s.IsDown)
      (hline : l.Pairwise (Behind s.epoch)) : Spares c s l t :=
    ⟨fun _ _ hut hu hx => hcontra hut hu hx, fun _ _ hut hu hx => hcontra hut hu hx,
      fun u x hut hu hx => ⟨(hpending u x hut hu hx).1, (hpending u x hut hu hx).2, hcontra hut hu⟩,
      hdown, hline⟩
  cases h with
  | mark | detach =>
    cases hl
    exact hspares (fun _ _ _ _ _ => ⟨rfl, rfl⟩) (fun _ hdown => hdown) hin.line
  | bump =>
    cases hl
    refine hspares (fun u x hut hu hx => ?_) (fun _ hdown => hdown) ?_
    · obtain ⟨q, rfl⟩ := eq_reconnect_of_isPending hx (hsole u x hut hu)
      exact absurd (hepochs u _ q hu) (Nat.not_succ_le_self _)
    · refine hin.line.imp_of_mem fun ha _ hab heq => hab ?_
      obtain rfl | heq := heq
      · exact absurd (hordered.epochs _ ha) (Nat.not_succ_le_self _)
      · exact .inr heq
  | publish d =>
    cases hl
    refine hspares (fun u x hut hu hx => ?_) (fun _ _ => .inr rfl) hin.line
    cases (hfit.2 u x hu).symm.trans hx
  | ask tasks =>
    cases hl
    exact hspares (fun _ _ _ _ _ => ⟨rfl, rfl⟩) (fun _ hdown => hdown)
      (pairwise_join hin.line fun _ _ _ => ⟨nofun, nofun⟩)
  | take tasks held =>
    refine .quiet hin ⟨rfl, rfl, rfl, rfl⟩ hl nofun
  | _ =>
    cases hl
    exact hspares (fun _ _ _ _ _ => ⟨rfl, rfl⟩) (fun _ hdown => hdown) hin.line

theorem CloseStep.fits {f : CloseFrame} (h : CloseStep c t p c₁ next) (hin : c.InOrder)
    (hl : Passage (c.holds t = true) c.stakes l p.stake? (next.elim ClosePhase.stake? none))
    (hfit : p.Fits c.shared c.stakes c.Calm)
    (hsole : ∀ (u : TaskId) x, u ≠ t → c.tasks[u]? = some x → x.isSwitching = false)
    (hepochs : ∀ (u : TaskId) e q, c.tasks[u]? = some (.reconnect e q) → e ≤ c.shared.epoch)
    (hcloser : next.elim ClosePhase.stake? none = none → .closer ∉ l) :
    next.elim (·.Fits c₁.shared l (Calm ⟨c₁.shared, c₁.tasks.set t (f.next next)⟩))
      (c₁.shared.closed = true ∧ Vacant l) := by
  have hidle (epoch : Nat) (p : ClosePhase) : (f.next (.phase p)).isPending epoch = false := by
    cases f <;> rfl
  cases h with
  | mark => exact rfl
  | bump =>
    refine ⟨hfit, .of_others (fun u x hut hu => ?_) (hidle _ _) (List.append_nil _).symm
      (List.forall_mem_nil _)⟩
    cases hx : x.isPending (c.update fun s => { s with epoch := s.epoch + 1 }).shared.epoch with
    | false => rfl
    | true =>
      obtain ⟨q, rfl⟩ := eq_reconnect_of_isPending hx (hsole u x hut hu)
      exact absurd (hepochs u _ q hu) (Nat.not_succ_le_self _)
  | detach => exact ⟨hfit.1, hfit.2.kept rfl (hidle _ _) rfl⟩
  | publish d => exact hfit.1
  | take tasks held =>
    have hafter : c.shared.closed = true ∧ Vacant l := by
      have hcloser : .closer ∉ l := by
        revert hcloser
        cases c.shared.outbound.sink <;> exact fun h => h rfl
      have hpassage : c.stakes = .closer :: l := by
        revert hl
        cases c.shared.outbound.sink <;> exact fun hl => hl.2 held
      have hline := hin.line
      rw [hpassage, List.pairwise_cons] at hline
      exact ⟨hfit, fun hmem => (hline.1 _ hmem (.inr (.inr rfl))).1 rfl,
        fun hmem => (hline.1 _ hmem (.inr (.inr rfl))).2 rfl, hcloser⟩
    cases c.shared.outbound.sink <;> exact hafter
  | _ =>
    cases hl
    exact hfit

end Closing

theorem ConnectStep.spares {p p' : ConnectPhase} (h : ConnectStep c p c₁ p') (hin : c.InOrder)
    (hsole : ∀ (u : TaskId) x, u ≠ t → c.tasks[u]? = some x → x.isSwitching = false)
    (hfit : p.Fits c.shared c.stakes c.Calm) : Spares c c₁.shared c.stakes t := by
  have hcontra {P : Prop} {u : TaskId} {x : Task} (hut : u ≠ t) (hu : c.tasks[u]? = some x)
      (hx : x.isSwitching = true) : P := by cases (hsole u x hut hu).symm.trans hx
  cases h with
  | publish epoch =>
    obtain ⟨-, -, hstatus, -, hvacant⟩ := hfit
    refine ⟨fun _ _ hut hu hx => hcontra hut hu hx, fun _ _ hut hu hx => hcontra hut hu hx,
      fun u x hut hu hx => ?_, fun hmem => absurd hmem hvacant.2.1, hin.line⟩
    -- a reconnect task finds the client reconnecting, not closed
    replace hx : x.isPending c.shared.epoch = true := hx
    obtain ⟨q, rfl⟩ := eq_reconnect_of_isPending hx (hsole u x hut hu)
    obtain ⟨_, _, heq, -⟩ | ⟨-, -, hreconnecting⟩ := status_of_isPending hx (hin.fits u _ hu)
    · cases heq
    · cases hstatus.symm.trans hreconnecting
  | _ =>
    exact ⟨fun _ _ hut hu hx => hcontra hut hu hx, fun _ _ hut hu hx => hcontra hut hu hx,
      fun _ _ hut hu _ => ⟨rfl, rfl, hcontra hut hu⟩, fun _ hdown => hdown, hin.line⟩

theorem ConnectStep.fits {p p' : ConnectPhase} (h : ConnectStep c p c₁ p')
    (hagrees : p.Agrees c.shared) (hfit : p.Fits c.shared c.stakes c.Calm) (calm : Prop) :
    p'.Fits c₁.shared c.stakes calm := by
  cases h with
  | readEpoch => exact ⟨rfl, hfit⟩
  | unclose epoch =>
    obtain ⟨hepoch, hclosed, hvacant⟩ := hfit
    have hstatus := hagrees.closed.1 hclosed
    exact ⟨hepoch, rfl, hstatus, hagrees.unlinked (.inl hstatus), hvacant⟩
  | publish epoch =>
    obtain ⟨hepoch, hclosed, -, hinstalled, hvacant⟩ := hfit
    exact ⟨hepoch, hclosed, rfl, hinstalled, hvacant⟩
  | refused | accepted => trivial
  | _ => exact hfit

section Opening

variable {epoch : Nat} {p : OpenPhase} {next : Next OpenPhase (Except Failure Unit)}

/-- What an opening of this task finds until it installs its link. -/
def OpenFrame.Early (s : Shared) (l : List Stake) : OpenFrame → Prop
  | connect epoch => s.Connects l epoch
  | reconnect epoch => s.Retries epoch

theorem OpenFrame.Early.unlinked {f : OpenFrame} (h : f.Early c.shared l)
    (hagrees : c.shared.Agrees) (hepoch : f.epoch = c.shared.epoch) :
    c.shared.link.installed = none := by
  cases f with
  | connect epoch => exact Shared.Connects.unlinked h
  | reconnect epoch => exact hagrees.unlinked (.inr (h hepoch))

theorem OpenFrame.Early.alike {f : OpenFrame} {s s' : Shared} {l' : List Stake}
    (h : f.Early s l) (hs : s.Alike s') (hl : Vacant l → Vacant l') : f.Early s' l' := by
  cases f with
  | connect epoch =>
    replace h : s.Connects l epoch := h
    exact ⟨h.epoch.trans hs.epoch.symm, hs.closed.trans h.closed, hs.status.trans h.status,
      hs.installed.trans h.unlinked, hl h.vacant⟩
  | reconnect epoch => exact fun hepoch => hs.status.trans (h (hepoch.trans hs.epoch))

theorem OpenFrame.isPending_eq_false (f : OpenFrame) (epoch : Nat) {p : OpenPhase}
    (hp : p.isPending = false) : (f.next (.phase p)).isPending epoch = false := by
  cases f with
  | connect e => exact hp
  | reconnect e => simp [OpenFrame.next, Task.isPending, hp]

theorem fits_of_isEarly {early calm : Prop} (hp : p.isEarly = true) :
    p.Fits l early calm ↔ early := by
  cases p <;> first | exact .rfl | cases hp

theorem OpenStep.spares (h : OpenStep c t epoch p c₁ next) (hin : c.InOrder) {early : Prop}
    (hl : Passage (c.holds t = true) c.stakes l (p.stake? epoch) (next.elim (·.stake? epoch) none))
    (hfit : p.Fits c.stakes early c.Calm)
    (hothers : p = .lock → c.isStale epoch = false → ∀ (u : TaskId) x, u ≠ t →
      c.tasks[u]? = some x → x.isPending c.shared.epoch = false) :
    Spares c c₁.shared l t := by
  cases h with
  | install held h =>
    have hquiet : Spares c c.shared l t := by
      refine .quiet hin ⟨rfl, rfl, rfl, rfl⟩ hl (by rintro ⟨⟩ _ ⟨⟩)
    refine ⟨hquiet.closed, hquiet.vacant, fun u x hut hu hx => ?_, hquiet.down, hquiet.line⟩
    cases (hothers rfl h u x hut hu).symm.trans hx
  | publish =>
    have hquiet : Spares c c.shared l t := .quiet hin ⟨rfl, rfl, rfl, rfl⟩ hl (by rintro ⟨⟩ _ ⟨⟩)
    refine ⟨hquiet.closed, hquiet.vacant, fun u x hut hu hx => ?_,
      fun hmem => absurd hmem hfit.1.2.1, hquiet.line⟩
    cases (hfit.2 u x hu).symm.trans hx
  | ask =>
    refine .quiet hin ⟨rfl, rfl, rfl, rfl⟩ hl fun _ j hj => ?_
    cases hj
    rfl
  | look hp hp' =>
    rw [stake?_of_isEarly hp, Next.elim, stake?_of_isEarly hp'] at hl
    exact .quiet hin ⟨rfl, rfl, rfl, rfl⟩ hl (by rintro ⟨⟩ _ ⟨⟩)
  | fail failure hp =>
    rw [stake?_of_isEarly hp] at hl
    exact .quiet hin ⟨rfl, rfl, rfl, rfl⟩ hl (by rintro ⟨⟩ _ ⟨⟩)
  | failRetired => exact hfit.elim
  | _ => exact .quiet hin ⟨rfl, rfl, rfl, rfl⟩ hl (by rintro ⟨⟩ _ ⟨⟩)

theorem OpenStep.fits {f : OpenFrame} (h : OpenStep c t f.epoch p c₁ next) (hin : c.InOrder)
    (hagrees : p.Agrees c.shared) (hordered : c.shared.Ordered c.stakes)
    (hl : Passage (c.holds t = true) c.stakes l (p.stake? f.epoch)
      (next.elim (·.stake? f.epoch) none))
    (hfit : p.Fits c.stakes (f.Early c.shared c.stakes) c.Calm)
    (hothers : p = .lock → c.isStale f.epoch = false → ∀ (u : TaskId) x, u ≠ t →
      c.tasks[u]? = some x → x.isPending c.shared.epoch = false) :
    next.elim (·.Fits l (f.Early c₁.shared l) (Calm ⟨c₁.shared, c₁.tasks.set t (f.next next)⟩))
      (next ≠ .over (.ok ()) → f.Early c₁.shared l) := by
  cases h with
  | look hp hp' =>
    rw [stake?_of_isEarly hp, Next.elim, stake?_of_isEarly hp'] at hl
    cases hl
    exact (fits_of_isEarly hp').2 ((fits_of_isEarly hp).1 hfit)
  | fail failure hp =>
    rw [stake?_of_isEarly hp] at hl
    cases hl
    exact fun _ => (fits_of_isEarly hp).1 hfit
  | dialed url =>
    cases hl
    exact hfit
  | ask =>
    cases hl
    exact OpenFrame.Early.alike hfit ⟨rfl, rfl, rfl, rfl⟩ fun hvacant => hvacant.join rfl
  | late held => exact fun _ => OpenFrame.Early.alike hfit ⟨rfl, rfl, rfl, rfl⟩ (·.sublist hl.1)
  | stale held h => exact fun _ => OpenFrame.Early.alike hfit ⟨rfl, rfl, rfl, rfl⟩ (·.sublist hl.1)
  | install held h =>
    have hcurrent : c.shared.epoch = f.epoch := by
      simpa [isStale] using (Bool.or_eq_false_iff.1 h).2
    have hnone := OpenFrame.Early.unlinked hfit hagrees hcurrent.symm
    rw [hnone] at hl ⊢
    have hpassage : c.stakes = .opener f.epoch :: l := hl.2 held
    have hline := hin.line
    have hbehind := hordered.behind
    rw [hpassage, List.pairwise_cons] at hline hbehind
    refine ⟨⟨fun hmem => ?_, fun hmem => ?_, fun hmem => ?_⟩,
      .of_others (hothers rfl h) (f.isPending_eq_false _ rfl) rfl (by simp [Task.isPending])⟩
    · exact (hline.1 _ hmem (.inl (by rw [hcurrent]))).1 rfl
    · exact (hline.1 _ hmem (.inl (by rw [hcurrent]))).2 rfl
    · exact hbehind.1 _ hmem (by rw [hcurrent]) rfl
  | failRetired => exact hfit.elim
  | resetAttempts =>
    cases hl
    exact ⟨hfit.1, hfit.2.kept rfl (f.isPending_eq_false _ rfl) rfl⟩
  | publish => exact fun h => absurd rfl h

end Opening

section Disconnecting

variable {g : Generation} {p : DisconnectPhase} {next : Next DisconnectPhase Unit}

/-- While a link is installed between turns, the client is not closed, nobody may install another
one, and no pass stands in the line. -/
theorem InOrder.of_linked (hin : c.InOrder) (hagrees : c.shared.Agrees)
    (hlinked : c.shared.link.installed ≠ none) :
    c.shared.closed = false ∧ c.Calm ∧ .pass ∉ c.stakes := by
  refine ⟨?_, fun u x hu => ?_, fun hmem => ?_⟩
  · cases hclosed : c.shared.closed with
    | false => rfl
    | true => exact absurd (hagrees.unlinked (.inl (hagrees.closed.1 hclosed))) hlinked
  · cases hx : x.isPending c.shared.epoch with
    | false => rfl
    | true =>
      obtain ⟨_, _, -, hconnects⟩ | ⟨-, -, hstatus⟩ := status_of_isPending hx (hin.fits u x hu)
      · exact absurd hconnects.unlinked hlinked
      · exact absurd (hagrees.unlinked (.inr hstatus)) hlinked
  · obtain ⟨u, x, hu, -, hstanding⟩ := exists_standing hmem
    exact absurd (hagrees.unlinked (hstanding.isDown (hin.fits u x hu)).symm) hlinked

theorem DisconnectStep.spares (h : DisconnectStep c t g p c₁ next) (hin : c.InOrder)
    (hagrees : p.Agrees c.shared)
    (hl : Passage (c.holds t = true) c.stakes l p.stake? (next.elim DisconnectPhase.stake? none))
    (hfit : p.Fits c.shared c.stakes c.Calm) : Spares c c₁.shared l t := by
  have hquiet {held : Prop} {k k' : Option Stake} (hl : Passage held c.stakes l k k')
      (hk : k = none → ∀ j, k' = some j → j.isMeek = true) : Spares c c.shared l t :=
    .quiet hin ⟨rfl, rfl, rfl, rfl⟩ hl hk
  cases h with
  | detach hold hg =>
    have hspares := hquiet hl nofun
    obtain ⟨-, hcalm, -⟩ := hin.of_linked hagrees (by simp [hold])
    refine ⟨hspares.closed, hspares.vacant, fun u x hut hu hx => ?_, hspares.down, hspares.line⟩
    cases (hcalm u x hu).symm.trans hx
  | publish =>
    have hspares := hquiet hl nofun
    refine ⟨hspares.closed, hspares.vacant, fun u x hut hu hx => ?_, fun _ _ => .inl rfl,
      hspares.line⟩
    cases (hfit.2.1 u x hu).symm.trans hx
  | ask closed =>
    cases hl
    obtain ⟨hclosed, hstatus, hcalm, hpass⟩ := hfit
    refine ⟨fun _ _ _ _ _ => id, fun _ _ _ _ _ hcase => ?_,
      fun _ _ _ _ _ => ⟨rfl, rfl, fun _ => ⟨rfl, rfl⟩⟩, fun _ => id,
      pairwise_join hin.line fun a ha hcase => ?_⟩
    · obtain hcase | hcase := hcase
      · cases hclosed.symm.trans hcase
      · cases hstatus.symm.trans hcase
    · -- nobody stands there who would mind the pass
      obtain ⟨u, x, hu, -, hstanding⟩ := exists_standing ha
      obtain rfl | rfl | rfl := hcase
      · cases (hcalm u x hu).symm.trans hstanding.isPending
      · exact absurd ha hpass
      · cases hclosed.symm.trans (hstanding.closed (hin.fits u x hu))
  | clear closed held => exact .quiet hin ⟨rfl, rfl, rfl, rfl⟩ hl nofun
  | _ => exact .quiet hin ⟨rfl, rfl, rfl, rfl⟩ hl nofun

theorem DisconnectStep.fits (h : DisconnectStep c t g p c₁ next) (hin : c.InOrder)
    (hagrees : p.Agrees c.shared)
    (hl : Passage (c.holds t = true) c.stakes l p.stake? (next.elim DisconnectPhase.stake? none))
    (hfit : p.Fits c.shared c.stakes c.Calm) :
    (passNext g next).Fits c₁.shared l (Calm ⟨c₁.shared, c₁.tasks.set t (passNext g next)⟩) := by
  cases h with
  | detach hold hg =>
    cases hl
    obtain ⟨hclosed, hcalm, hpass⟩ := hin.of_linked hagrees (by simp [hold])
    exact ⟨hclosed, hcalm.kept rfl rfl rfl, hpass⟩
  | signal old =>
    cases hl
    exact ⟨hfit.1, hfit.2.1.kept rfl rfl rfl, hfit.2.2⟩
  | closed h => cases hfit.1.symm.trans h
  | unclosed h =>
    cases hl
    exact ⟨hfit.1, hfit.2.1.kept rfl rfl rfl, hfit.2.2⟩
  | publish =>
    cases hl
    exact ⟨hfit.1, rfl, hfit.2.1.kept rfl rfl rfl, hfit.2.2⟩
  | ask closed => exact .inl hfit.2.1
  | clear closed held =>
    have hline := hin.line
    rw [hl.2 held, List.pairwise_cons] at hline
    exact ⟨hfit, fun hmem => (hline.1 _ hmem (.inr (.inl rfl))).1 rfl⟩
  | fail => exact hfit.1
  | _ => trivial

end Disconnecting

theorem StartStep.fits {p : StartPhase} {next : Next StartPhase Unit} (h : StartStep c p c₁ next)
    (hagrees : c.shared.Agrees) (hfit : p.Fits c.shared) : next.elim (·.Fits c₁.shared) True := by
  cases h with
  | unclosed h =>
    refine hfit.resolve_right fun hstatus => ?_
    cases h.symm.trans (hagrees.closed.2 hstatus)
  | claim h => exact hfit
  | _ => trivial

theorem fits_of_isLooping {epoch : Nat} {p : ReconnectPhase} {calm : Prop}
    (hp : p.isLooping = true) : p.Fits s l calm epoch ↔ s.Retries epoch := by
  cases p <;> first | exact .rfl | cases hp

theorem ReconnectStep.fits {epoch : Nat} {p p' : ReconnectPhase} (h : ReconnectStep c epoch p c₁ p')
    (hfit : p.Fits c.shared c.stakes c.Calm epoch) (calm : Prop) :
    p'.Fits c₁.shared c.stakes calm epoch := by
  cases h with
  | look hp hp' => exact (fits_of_isLooping hp').2 ((fits_of_isLooping hp).1 hfit)
  | dial => exact hfit
  | count attempt delay => exact hfit
  | unsettled h => exact .inl h
  | _ => trivial

theorem ReconnectStep.alike {epoch : Nat} {p p' : ReconnectPhase}
    (h : ReconnectStep c epoch p c₁ p') : c.shared.Alike c₁.shared := by
  cases h <;> exact ⟨rfl, rfl, rfl, rfl⟩

theorem ReconnectStep.stake?_eq_none {epoch : Nat} {p p' : ReconnectPhase}
    (h : ReconnectStep c epoch p c₁ p') :
    (Task.reconnect epoch p).stake? = none ∧ (Task.reconnect epoch p').stake? = none := by
  cases h with
  | look hp hp' => exact ⟨stake?_of_isLooping hp, stake?_of_isLooping hp'⟩
  | leave hp h => exact ⟨stake?_of_isLooping hp, rfl⟩
  | _ => exact ⟨rfl, rfl⟩

theorem SendStep.alike {text : String} {p : SendPhase} {next : Next SendPhase (Except Failure Unit)}
    (h : SendStep c t text p c₁ next) : c.shared.Alike c₁.shared := by
  cases h <;> exact ⟨rfl, rfl, rfl, rfl⟩

theorem CallStep.alike {spec : CallSpec} {p : CallPhase} {next : Next CallPhase (Option Outcome)}
    (h : CallStep c t spec choice p c₁ next) : c.shared.Alike c₁.shared := by
  cases h with
  | send id n h | sent id n h | unsent id n h => exact h.alike
  | _ => exact ⟨rfl, rfl, rfl, rfl⟩

/-- A call joins the line only while the link is open. -/
theorem CallStep.opened_of_join {spec : CallSpec} {p : CallPhase}
    {next : Next CallPhase (Option Outcome)} (h : CallStep c t spec choice p c₁ next)
    (hagrees : p.Agrees c.shared) (hp : p.stake? = none)
    (hnext : next.elim CallPhase.stake? none ≠ none) :
    c.shared.Agrees ∧ c.shared.status = .opened := by
  cases h with
  | look hp hp' => exact absurd (stake?_of_isOutside hp') hnext
  | send id n h => cases h <;> first | exact hagrees | cases hp
  | _ => exact absurd rfl hnext

theorem CallStep.spares {spec : CallSpec} {p : CallPhase} {next : Next CallPhase (Option Outcome)}
    (h : CallStep c t spec choice p c₁ next) (hin : c.InOrder) (hagrees : p.Agrees c.shared)
    (hl : Passage (c.holds t = true) c.stakes l p.stake? (next.elim CallPhase.stake? none)) :
    Spares c c₁.shared l t := by
  by_cases hjoin : p.stake? = none ∧ next.elim CallPhase.stake? none ≠ none
  · obtain ⟨hagrees, hopened⟩ := h.opened_of_join hagrees hjoin.1 hjoin.2
    obtain ⟨hopener, hpass, hcloser⟩ := hin.not_mem_of_opened hagrees hopened
    obtain ⟨hepoch, hclosed, hstatus, hinstalled⟩ := h.alike
    obtain ⟨k, hk⟩ := Option.ne_none_iff_exists'.1 hjoin.2
    rw [hjoin.1, hk] at hl
    refine ⟨fun _ _ _ _ _ => hclosed ▸ id, fun _ _ _ _ _ hcase => ?_,
      fun _ _ _ _ _ => ⟨hepoch, hstatus, fun _ => ⟨hclosed, hinstalled⟩⟩, fun _ hdown => ?_, ?_⟩
    · obtain hcase | hcase := hcase
      · cases hopened.symm.trans (hagrees.closed.1 hcase)
      · cases hopened.symm.trans hcase
    · rwa [Shared.IsDown, hstatus]
    · rw [hepoch, show l = c.stakes ++ [k] from hl]
      refine pairwise_join hin.line fun a ha hcase => ?_
      obtain rfl | rfl | rfl := hcase
      · exact absurd ha hopener
      · exact absurd ha hpass
      · exact absurd ha hcloser
  · refine .quiet hin h.alike hl fun hnone j hj => absurd ⟨hnone, ?_⟩ hjoin
    simp [hj]

section Frames

variable {calm : Prop}

@[simp] theorem OpenFrame.fits_phase (f : OpenFrame) (p : OpenPhase) :
    (f.next (.phase p)).Fits s l calm ↔ p.Fits l (f.Early s l) calm := by
  cases f <;> exact .rfl

theorem OpenFrame.fits_next (f : OpenFrame) {next : Next OpenPhase (Except Failure Unit)}
    (h : next.elim (·.Fits l (f.Early s l) calm) (next ≠ .over (.ok ()) → f.Early s l)) :
    (f.next next).Fits s l calm := by
  rcases next with p | ⟨failure | _⟩
  · exact (f.fits_phase p).2 h
  · cases f with
    | connect epoch => trivial
    | reconnect epoch => exact h nofun
  · cases f <;> trivial

@[simp] theorem CloseFrame.fits_phase (f : CloseFrame) (p : ClosePhase) :
    (f.next (.phase p)).Fits s l calm ↔ p.Fits s l calm := by
  cases f <;> exact .rfl

theorem CloseFrame.fits_next (f : CloseFrame) {next : Next ClosePhase Unit}
    (h : next.elim (·.Fits s l calm) (s.closed = true ∧ Vacant l)) :
    (f.next next).Fits s l calm := by
  cases next with
  | phase p => exact (f.fits_phase p).2 h
  | _ => cases f <;> first | exact h | trivial

@[simp] theorem StartFrame.fits_phase (f : StartFrame) (p : StartPhase) :
    (f.next (.phase p)).Fits s l calm ↔ p.Fits s := by
  cases f <;> exact .rfl

theorem StartFrame.fits_next (f : StartFrame) {next : Next StartPhase Unit}
    (h : next.elim (·.Fits s) True) : (f.next next).Fits s l calm := by
  cases next with
  | phase p => exact (f.fits_phase p).2 h
  | _ => cases f <;> trivial

@[simp] theorem CallFrame.fits_next (f : CallFrame) (next : Next CallPhase (Option Outcome)) :
    (f.next next).Fits s l calm := by
  fun_cases CallFrame.next f next <;> trivial

end Frames

/-- What is known when a task steps in an orderly run. -/
structure Scene (config : Config) (c : Client) (t : TaskId) (task : Task) : Prop where
  reachable : Reachable config c
  kept : c.IsKept
  sole : ∀ {u v : TaskId} {x y : Task}, c.tasks[u]? = some x → c.tasks[v]? = some y →
    x.isSwitching = true → y.isSwitching = true → u = v
  inOrder : c.InOrder
  present : c.tasks[t]? = some task
  agrees : task.Agrees c.shared
  ordered : task.Ordered c.shared c.stakes
  others : ∀ {u : TaskId} {x : Task}, u ≠ t → c.tasks[u]? = some x → rests x = true

namespace Scene

theorem no_switching (scene : Scene config c t task) (hswitching : task.isSwitching = true)
    (u : TaskId) (x : Task) (hut : u ≠ t) (hu : c.tasks[u]? = some x) : x.isSwitching = false := by
  cases hx : x.isSwitching with
  | false => rfl
  | true => exact absurd (scene.sole hu scene.present hx hswitching) hut

/-- Nobody else may install a link when an opening does. -/
theorem no_pending {f : OpenFrame} (scene : Scene config c t (f.next (.phase .lock)))
    (hcurrent : c.isStale f.epoch = false) (u : TaskId) (x : Task) (hut : u ≠ t)
    (hu : c.tasks[u]? = some x) : x.isPending c.shared.epoch = false := by
  have hepoch : c.shared.epoch = f.epoch := by
    simpa [isStale] using (Bool.or_eq_false_iff.1 hcurrent).2
  have hearly : f.Early c.shared c.stakes :=
    (f.fits_phase .lock).1 (scene.inOrder.fits t _ scene.present)
  cases hx : x.isPending c.shared.epoch with
  | false => rfl
  | true =>
    have hfound := status_of_isPending hx (scene.inOrder.fits u x hu)
    cases f with
    | connect epoch =>
      replace hearly : c.shared.Connects c.stakes epoch := hearly
      obtain ⟨_, _, rfl, -⟩ | ⟨-, -, hstatus⟩ := hfound
      · cases scene.no_switching rfl u _ hut hu
      · cases hearly.status.symm.trans hstatus
    | reconnect epoch =>
      have hreconnecting : c.shared.status = .reconnecting := hearly hepoch.symm
      obtain ⟨_, _, -, hconnects⟩ | ⟨-, howns, -⟩ := hfound
      · cases hreconnecting.symm.trans hconnects.status
      · exact absurd ((scene.reachable.marked scene.kept).unique u t _ _ hu scene.present howns rfl)
          hut

/-- How the line changes by the step. -/
theorem passage (scene : Scene config c t task) (h : TaskStep c t choice task c₁ task') :
    Passage (c.holds t = true) c.stakes (stakes ⟨c₁.shared, c₁.tasks.set t task'⟩) task.stake?
      task'.stake? :=
  ((scene.reachable.lined scene.kept).step scene.present (scene.kept.not_discard scene.present) h).2

theorem spares (scene : Scene config c t task) (h : TaskStep c t choice task c₁ task') :
    Spares c c₁.shared (stakes ⟨c₁.shared, c₁.tasks.set t task'⟩) t := by
  have hin := scene.inOrder
  have hfit := hin.fits t task scene.present
  have hl := scene.passage h
  have hd := scene.kept.not_discard scene.present
  generalize stakes ⟨c₁.shared, c₁.tasks.set t task'⟩ = l at hl ⊢
  cases h with
  | opening f h =>
    rw [f.stake?_next, f.stake?_next] at hl
    refine h.spares hin hl (by simpa using hfit) fun hp hcurrent => ?_
    subst hp
    exact scene.no_pending hcurrent
  | closing f h =>
    rw [f.stake?_next, f.stake?_next] at hl
    exact h.spares hin hl (scene.no_switching (by cases f <;> rfl))
      (by simpa using scene.ordered) (by simpa using hfit)
      fun u e q hu => scene.reachable.reconnect_epoch_le hu
  | calling f h =>
    rw [f.stake?_next, f.stake?_next] at hl
    exact h.spares hin (by simpa using scene.agrees) hl
  | starting f h =>
    rw [f.stake?_next, f.stake?_next] at hl
    cases h <;> exact .quiet hin ⟨rfl, rfl, rfl, rfl⟩ hl nofun
  | disconnecting g h =>
    rw [stake?_passNext, stake?_passNext] at hl
    exact h.spares hin scene.agrees hl hfit
  | @replying g response _ p next h =>
    rw [stake?_replyNext, stake?_replyNext] at hl
    refine .quiet hin h.alike hl fun _ j hj => ?_
    cases next with
    | phase p => cases p <;> cases hj <;> rfl
    | _ => cases hj
  | connect h =>
    have hsame : l = c.stakes := by cases h <;> exact hl
    exact hsame ▸ h.spares hin (scene.no_switching (by cases h <;> rfl)) hfit
  | receive g h =>
    cases h with
    | handled id result => cases id <;> exact .quiet hin ⟨rfl, rfl, rfl, rfl⟩ hl nofun
    | _ => exact .quiet hin ⟨rfl, rfl, rfl, rfl⟩ hl nofun
  | heart g h => cases h <;> exact .quiet hin ⟨rfl, rfl, rfl, rfl⟩ hl nofun
  | reconnect epoch h =>
    rw [h.stake?_eq_none.1, h.stake?_eq_none.2] at hl
    exact .quiet hin h.alike hl nofun
  | discard h => cases hd

theorem fits_stepped (scene : Scene config c t task) (h : TaskStep c t choice task c₁ task') :
    task'.Fits c₁.shared (stakes ⟨c₁.shared, c₁.tasks.set t task'⟩)
      (Calm ⟨c₁.shared, c₁.tasks.set t task'⟩) := by
  have hin := scene.inOrder
  have hfit := hin.fits t task scene.present
  have hl := scene.passage h
  have hd := scene.kept.not_discard scene.present
  have hgrows := h.grows hd
  cases h with
  | opening f h =>
    rw [f.stake?_next, f.stake?_next] at hl
    refine f.fits_next (h.fits hin (by simpa using scene.agrees)
      (by simpa using scene.ordered) hl (by simpa using hfit)
      fun hp hcurrent => ?_)
    subst hp
    exact scene.no_pending hcurrent
  | closing f h =>
    have hsole := scene.no_switching (by cases f <;> rfl)
    rw [f.stake?_next, f.stake?_next] at hl
    refine f.fits_next (h.fits hin hl (by simpa using hfit) hsole
      (fun u e q hu => scene.reachable.reconnect_epoch_le hu) fun hnone hmem => ?_)
    -- whoever stands there to close is another one who switches
    obtain ⟨u, x, hu, hk, hstanding⟩ := exists_standing hmem
    obtain ⟨-, rfl⟩ | ⟨hut, hu⟩ | ⟨-, -, hnew⟩ := hgrows.cases_task hu
    · simp [hnone] at hk
    · cases (hsole u x hut hu).symm.trans hstanding.isSwitching
    · cases (stake?_of_isNew hnew.1).symm.trans hk
  | calling f h => exact f.fits_next _
  | starting f h =>
    refine f.fits_next (h.fits ?_ (by simpa using hfit))
    exact (f.agrees_next (.phase _)).1 scene.agrees
  | @disconnecting g _ p next h =>
    rw [stake?_passNext, stake?_passNext] at hl
    exact h.fits hin scene.agrees hl hfit
  | @replying g response _ p next h => cases next <;> trivial
  | @connect _ p p' h =>
    have hsame : stakes ⟨c₁.shared, c₁.tasks.set t (.connect p')⟩ = c.stakes := by
      cases h <;> exact hl
    exact hsame ▸ h.fits scene.agrees hfit _
  | receive g h =>
    cases h with
    | handled id result => cases id <;> trivial
    | _ => trivial
  | heart g h => cases h <;> trivial
  | reconnect epoch h =>
    rw [h.stake?_eq_none.1, h.stake?_eq_none.2] at hl
    exact (show stakes _ = c.stakes from hl) ▸ h.fits hfit _
  | discard h => cases hd

/-- A new task finds what it has to. -/
theorem fits_new (scene : Scene config c t task) (h : TaskStep c t choice task c₁ task')
    (l : List Stake) (calm : Prop) : ∃ added, c₁.tasks = c.tasks ++ added ∧
      ∀ x ∈ added, x.Fits c₁.shared l calm := by
  have hd := scene.kept.not_discard scene.present
  have hfit := scene.inOrder.fits t task scene.present
  have hsame (h : c₁.tasks = c.tasks) : ∃ added, c₁.tasks = c.tasks ++ added ∧
      ∀ x ∈ added, x.Fits c₁.shared l calm := ⟨[], by simp [h], List.forall_mem_nil _⟩
  cases h with
  | opening f h =>
    cases h with
    | install held h => exact ⟨_, rfl, by simp [Task.Fits]⟩
    | _ => exact hsame rfl
  | starting f h =>
    cases h with
    | spawn =>
      refine ⟨_, rfl, fun x hx => ?_⟩
      obtain rfl := List.mem_singleton.1 hx
      exact fun _ => (f.fits_phase .readEpoch).1 hfit
    | _ => exact hsame rfl
  | closing f h => exact hsame h.tasks
  | calling f h => exact hsame h.tasks
  | disconnecting g h => cases h <;> exact hsame rfl
  | replying g response h => exact hsame h.tasks
  | connect h => cases h <;> exact hsame rfl
  | receive g h => cases h <;> exact hsame rfl
  | heart g h => cases h <;> exact hsame rfl
  | reconnect epoch h => cases h <;> exact hsame rfl
  | discard h => cases hd

theorem inOrder_stepped (scene : Scene config c t task) (h : TaskStep c t choice task c₁ task') :
    InOrder ⟨c₁.shared, c₁.tasks.set t task'⟩ := by
  have hspares := scene.spares h
  refine ⟨hspares.line, fun u x hu => ?_⟩
  obtain ⟨added, htasks, hadded⟩ := scene.fits_new h
    (stakes ⟨c₁.shared, c₁.tasks.set t task'⟩) (Calm ⟨c₁.shared, c₁.tasks.set t task'⟩)
  obtain ⟨rfl, rfl⟩ | ⟨hut, hu⟩ | ⟨-, -, hnew⟩ := cases_set_append (htasks ▸ hu)
  · exact scene.fits_stepped h
  · exact hspares.fits (scene.reachable.lined scene.kept) hut hu (scene.others hut hu)
      (scene.inOrder.fits u x hu)
  · exact hadded x (List.mem_of_getElem? hnew)

end Scene

/-- What the user does between turns disturbs nobody. -/
theorem InOrder.outer (hin : c.InOrder) (hlined : c.Lined) (hs : c.shared.Alike c'.shared)
    (hl : c'.stakes = c.stakes)
    (hrest : ∀ (u : TaskId) x, c.tasks[u]? = some x → rests x = true)
    (htasks : ∀ (u : TaskId) x, c'.tasks[u]? = some x →
      c.tasks[u]? = some x ∨ ∃ request : Request, x = request.task) : c'.InOrder := by
  -- no task has the number that comes next, so this spares all
  have hspares : Spares c c'.shared c'.stakes c.tasks.length :=
    .quiet hin hs (show Passage False c.stakes c'.stakes none none from hl) nofun
  refine ⟨hspares.line, fun u x hu => ?_⟩
  obtain hold | ⟨request, rfl⟩ := htasks u x hu
  · exact hspares.fits hlined (Nat.ne_of_lt (List.getElem?_eq_some_iff.1 hold).1) hold
      (hrest u x hold) (hin.fits u x hold)
  · cases request <;> trivial

/-- In orderly runs everybody finds what his phase finds. -/
theorem Orderly.inOrder (run : Orderly config turn c) : c.InOrder := by
  induction run with
  | fresh => exact ⟨List.Pairwise.nil, fun t x ht => by cases ht⟩
  | @move turn c c' m before permitted keeps h ih =>
    have hkept := Orderly.isKept before
    have hlined := before.cooperative.reachable.lined hkept
    cases apply_cases h with
    | start request =>
      exact ih.outer hlined ⟨rfl, rfl, rfl, rfl⟩ (stakes_spawn c request)
        (fun u x hu => before.cooperative.all_rest keeps hu)
        fun u x hu => (cases_spawn hu).imp_right fun hx => ⟨request, hx⟩
    | register method handler registry | cancel token =>
      exact ih.outer hlined ⟨rfl, rfl, rfl, rfl⟩ rfl
        (fun u x hu => before.cooperative.all_rest keeps hu) fun u x hu => .inl hu
    | step ht hstep =>
      refine Scene.inOrder_stepped ⟨before.cooperative.reachable, hkept, Orderly.sole before, ih,
        ht, ?_, ?_, fun hut hu => before.cooperative.others_rest keeps hut hu⟩ hstep
      · exact (before.cooperative.agrees hkept).amid resting_agreement before.cooperative keeps ht
      · exact (before.cooperative.ordered hkept).amid resting_order before.cooperative keeps ht

/-- The scene of a step in an orderly run. -/
theorem Orderly.scene (run : Orderly config turn c)
    (keeps : c.keepsTurn turn (.step t choice) = true) (ht : c.tasks[t]? = some task) :
    Scene config c t task where
  reachable := run.cooperative.reachable
  kept := Orderly.isKept run
  sole := Orderly.sole run
  inOrder := Orderly.inOrder run
  present := ht
  agrees := (run.cooperative.agrees (Orderly.isKept run)).amid resting_agreement run.cooperative
    keeps ht
  ordered := (run.cooperative.ordered (Orderly.isKept run)).amid resting_order run.cooperative
    keeps ht
  others hut hu := run.cooperative.others_rest keeps hut hu

end DuplexRpc.Client
