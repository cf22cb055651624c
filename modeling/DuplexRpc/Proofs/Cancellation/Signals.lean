import DuplexRpc.Proofs.Cancellation.Events

/-!
Signals and what has been done. Each token was made with a signal, which it keeps while it is there
and which its copies are made with; so two tokens were made with one signal exactly if copying
connects them. A signal is raised exactly by the cancelling of a token that was made with it, and
waiters look at nothing else.
-/
namespace DuplexRpc.Tokens

variable {t t' : Tokens} {es : List Event} {e : Event} {op : Op} {a : Answer} {i j s w : Nat}
  {origin origin' : List Nat}

/-- An operation that finds nothing to do. -/
def IsIdle (t : Tokens) : Op → Prop
  | .create | .drop _ => False
  | .clone i | .cancel i | .wait i => t.signal? i = none
  | .isCancelled _ | .check _ => True
  | .poll w => ∀ s, t.waiters[w]? = some ⟨s, false⟩ → t.raised s = false

inductive Change (t : Tokens) : Op → Answer → Tokens → Prop where
  | create : Change t .create (.index t.tokens.length)
      { t with signals := t.signals ++ [false], tokens := t.tokens ++ [some t.signals.length] }
  | clone {i s : Nat} (h : t.signal? i = some s) :
      Change t (.clone i) (.index t.tokens.length) { t with tokens := t.tokens ++ [some s] }
  | cancel {i s : Nat} (h : t.signal? i = some s) :
      Change t (.cancel i) .none { t with signals := t.signals.set s true }
  | drop (i : Nat) : Change t (.drop i) .none { t with tokens := t.tokens.set i none }
  | wait {i s : Nat} (h : t.signal? i = some s) :
      Change t (.wait i) (.index t.waiters.length)
        { t with waiters := t.waiters ++ [⟨s, false⟩] }
  | finish {w s : Nat} (h : t.waiters[w]? = some ⟨s, false⟩) (hs : t.raised s = true) :
      Change t (.poll w) (.polled .ready) { t with waiters := t.waiters.set w ⟨s, true⟩ }
  | idle {op : Op} {a : Answer} (h : t.IsIdle op) (ha : ∀ n, a ≠ .index n) : Change t op a t

theorem change_step (t : Tokens) (op : Op) : t.Change op (t.step op).2 (t.step op).1 := by
  cases op with
  | create => exact .create
  | drop i => exact .drop i
  | isCancelled i | check i => exact .idle trivial (by simp [step])
  | clone i =>
    cases h : t.signal? i with
    | some s => simpa only [step, h] using .clone h
    | none => simpa only [step, h] using .idle h (by simp)
  | cancel i =>
    cases h : t.signal? i with
    | some s => simpa only [step, h] using .cancel h
    | none => simpa only [step, h] using .idle h (by simp)
  | wait i =>
    cases h : t.signal? i with
    | some s => simpa only [step, h] using .wait h
    | none => simpa only [step, h] using .idle h (by simp)
  | poll w =>
    rw [step.eq_def]
    dsimp only
    split
    next x hx =>
      obtain ⟨s, finished⟩ := x
      dsimp only
      split
      next hfinished => exact .idle (fun r hr => by simp_all) (by simp)
      next hfinished =>
        obtain rfl : finished = false := by simpa using hfinished
        split
        next hraised => exact .finish hx hraised
        next hraised => exact .idle (fun r hr => by simp_all) (by simp)
    next hnone => exact .idle (fun r hr => by simp [hnone] at hr) (by simp)

theorem getElem?_concat_eq_some_iff {α : Type _} {l : List α} {x y : α} {i : Nat} :
    (l ++ [x])[i]? = some y ↔ l[i]? = some y ∨ i = l.length ∧ x = y := by
  rw [List.getElem?_append]
  split
  next h => simp [Nat.ne_of_lt h]
  next h =>
    rw [List.getElem?_singleton, List.getElem?_eq_none (Nat.le_of_not_lt h)]
    have hi : i - l.length = 0 ↔ i = l.length := by omega
    simp [hi]

theorem signal?_eq_some_iff : t.signal? i = some s ↔ t.tokens[i]? = some (some s) := by
  unfold signal?
  cases h : t.tokens[i]? <;> simp

theorem signal?_concat (htokens : t'.tokens = t.tokens ++ [some s]) {r : Nat} :
    t'.signal? i = some r ↔ t.signal? i = some r ∨ i = t.tokens.length ∧ s = r := by
  rw [signal?_eq_some_iff, htokens, getElem?_concat_eq_some_iff, signal?_eq_some_iff,
    Option.some.injEq]

theorem signal?_concat_of_lt (hlt : i < t.tokens.length)
    (htokens : t'.tokens = t.tokens ++ [some s]) : t'.signal? i = t.signal? i := by
  rw [signal?, htokens, List.getElem?_append_left hlt, signal?]

@[simp] theorem signal?_drop (t : Tokens) (i j : Nat) :
    ({ t with tokens := t.tokens.set i none } : Tokens).signal? j =
      if j = i then none else t.signal? j := by
  by_cases hj : j = i
  · subst hj
    by_cases hlt : j < t.tokens.length <;> simp [signal?, hlt]
  · simp [signal?, hj, Ne.symm hj]

/-- The signals that the tokens were made with, in the order of the tokens. The dropped ones are
there too, since they go on connecting their copies. -/
structure Lineage (es : List Event) (origin : List Nat) (t : Tokens) : Prop where
  length : origin.length = t.tokens.length
  known : ∀ s ∈ origin, s < t.signals.length
  made : ∀ i, IsMade es i → i < origin.length
  live : ∀ i, IsLive es i ↔ ∃ s, t.signal? i = some s
  own : ∀ i s, t.signal? i = some s → origin[i]? = some s
  copy : ∀ i j, IsCopy es i j → ∃ s, origin[i]? = some s ∧ origin[j]? = some s
  group : ∀ i j s, origin[i]? = some s → origin[j]? = some s → SameGroup es i j

theorem Lineage.empty : Lineage [] [] empty := by
  refine ⟨rfl, by simp, ?_, ?_, by simp [signal?, Tokens.empty], ?_, by simp⟩
  · rintro i ⟨e, he, -⟩
    cases he
  · intro i
    simp [IsLive, signal?, Tokens.empty]
  · intro i j h
    cases h

theorem Lineage.origin_eq (h : Lineage es origin t) (hgroup : SameGroup es i j) :
    origin[i]? = origin[j]? := by
  refine hgroup.eq_of_copies fun i j hcopy => ?_
  obtain ⟨s, hi, hj⟩ := h.copy i j hcopy
  rw [hi, hj]

theorem Lineage.keep (h : Lineage es origin t) (htokens : t'.tokens = t.tokens)
    (hsignals : t'.signals.length = t.signals.length) (hmade : made? e = none)
    (hdrop : ∀ i, e.1 ≠ .drop i) : Lineage (es ++ [e]) origin t' := by
  have hsignal (i : Nat) : t'.signal? i = t.signal? i := by rw [signal?, htokens, signal?]
  have hcopy {i j : Nat} : IsCopy (es ++ [e]) i j ↔ IsCopy es i j := by
    rw [isCopy_concat_iff, or_iff_left]
    rintro rfl
    cases hmade
  refine ⟨htokens ▸ h.length, hsignals ▸ h.known, fun i hi => ?_, fun i => ?_, fun i s hi => ?_,
    fun i j hij => h.copy i j (hcopy.1 hij), fun i j s hi hj => ?_⟩
  · rw [isMade_concat_iff, hmade] at hi
    exact h.made i (by simpa using hi)
  · rw [isLive_concat_iff, hmade, hsignal, ← h.live]
    simp [hdrop]
  · exact h.own i s (hsignal i ▸ hi)
  · exact (h.group i j s hi hj).append _

/-- A new token, with a new signal or that of the token that it was copied from. -/
theorem Lineage.make (h : Lineage es origin t) (htokens : t'.tokens = t.tokens ++ [some s])
    (hsignals : t.signals.length ≤ t'.signals.length) (hs : s < t'.signals.length)
    (hmade : made? e = some t.tokens.length) (hdrop : ∀ i, e.1 ≠ .drop i)
    (hcopy : ∀ i j, e = (.clone i, .index j) → origin[i]? = some s)
    (hgroup : ∀ i, origin[i]? = some s → SameGroup (es ++ [e]) i t.tokens.length) :
    Lineage (es ++ [e]) (origin ++ [s]) t' := by
  refine ⟨by simp [htokens, h.length], fun r hr => ?_, fun i hi => ?_, fun i => ?_,
    fun i r hi => ?_, fun i j hij => ?_, fun i j r hi hj => ?_⟩
  · obtain hr | hr := List.mem_append.1 hr
    · exact Nat.lt_of_lt_of_le (h.known r hr) hsignals
    · exact List.mem_singleton.1 hr ▸ hs
  · rw [List.length_append, List.length_singleton]
    obtain hi | hi := isMade_concat_iff.1 hi
    · exact Nat.lt_succ_of_lt (h.made i hi)
    · rw [hmade, Option.some.injEq] at hi
      rw [← hi, h.length]
      exact Nat.lt_succ_self _
  · simp only [isLive_concat_iff, h.live, signal?_concat htokens, hmade, hdrop, ne_eq,
      not_false_eq_true, and_true, exists_or, Option.some.injEq, exists_and_left, exists_eq', eq_comm]
  · rw [getElem?_concat_eq_some_iff, h.length]
    exact ((signal?_concat htokens).1 hi).imp_left (h.own i r)
  · simp only [getElem?_concat_eq_some_iff]
    obtain hij | rfl := isCopy_concat_iff.1 hij
    · obtain ⟨r, hi, hj⟩ := h.copy i j hij
      exact ⟨r, .inl hi, .inl hj⟩
    · obtain rfl : j = t.tokens.length := Option.some.inj hmade
      exact ⟨s, .inl (hcopy i _ rfl), .inr ⟨h.length.symm, rfl⟩⟩
  · rw [getElem?_concat_eq_some_iff, h.length] at hi hj
    obtain hi | ⟨rfl, rfl⟩ := hi <;> obtain hj | ⟨rfl, hr⟩ := hj
    · exact (h.group i j r hi hj).append _
    · exact hgroup i (hr ▸ hi)
    · exact (hgroup j hj).symm
    · exact .refl _

theorem Lineage.drop (h : Lineage es origin t) (i : Nat) :
    Lineage (es ++ [(.drop i, .none)]) origin { t with tokens := t.tokens.set i none } := by
  refine ⟨by simp [h.length], h.known, fun j hj => ?_, fun j => ?_, fun j s hj => ?_,
    fun j k hjk => ?_, fun j k s hj hk => (h.group j k s hj hk).append _⟩
  · exact h.made j (by simpa [isMade_concat_iff, made?] using hj)
  · rw [isLive_concat_iff, h.live]
    by_cases hji : j = i
    · simp [hji, made?]
    · simp [hji, Ne.symm hji, made?]
  · obtain ⟨-, hj⟩ : j ≠ i ∧ t.signal? j = some s := by simpa using hj
    exact h.own j s hj
  · exact h.copy j k (by simpa [isCopy_concat_iff] using hjk)

theorem made?_eq_none (ha : ∀ n, a ≠ .index n) : made? (op, a) = none := by
  cases a with
  | index n => exact absurd rfl (ha n)
  | _ => cases op <;> rfl

theorem Lineage.step (h : Lineage es origin t) (hc : t.Change op a t') :
    ∃ origin', origin <+: origin' ∧ Lineage (es ++ [(op, a)]) origin' t' := by
  cases hc with
  | create =>
    refine ⟨_, List.prefix_append .., h.make (s := t.signals.length) rfl (by simp) (by simp) rfl
      nofun nofun fun i hi => ?_⟩
    exact absurd (h.known _ (List.mem_of_getElem? hi)) (Nat.lt_irrefl _)
  | @clone i s hi =>
    have hsignal : s < t.signals.length := h.known s (List.mem_of_getElem? (h.own i s hi))
    refine ⟨_, List.prefix_append .., h.make rfl (Nat.le_refl _) hsignal rfl nofun
      (fun j k heq => ?_) fun j hj => ?_⟩
    · cases heq
      exact h.own i s hi
    · -- an old token with the signal is in the group of the one that is copied
      have hgroup : SameGroup (es ++ [(.clone i, .index t.tokens.length)]) j i :=
        (h.group j i s hj (h.own i s hi)).append _
      exact .trans _ _ _ hgroup (.rel _ _ (isCopy_concat_iff.2 (.inr rfl)))
  | cancel => exact ⟨origin, List.prefix_rfl, h.keep rfl List.length_set rfl nofun⟩
  | drop i => exact ⟨origin, List.prefix_rfl, h.drop i⟩
  | wait => exact ⟨origin, List.prefix_rfl, h.keep rfl rfl rfl nofun⟩
  | finish => exact ⟨origin, List.prefix_rfl, h.keep rfl rfl rfl nofun⟩
  | idle hidle ha =>
    refine ⟨origin, List.prefix_rfl, h.keep rfl rfl (made?_eq_none ha) ?_⟩
    rintro i rfl
    exact hidle

/-- A signal is raised exactly by the cancelling of a token that was made with it. -/
structure Raising (es : List Event) (origin : List Nat) (t : Tokens) : Prop where
  sound : ∀ c, IsCancelledOn es c → ∃ s, origin[c]? = some s ∧ t.raised s = true
  complete : ∀ s, t.raised s = true → ∃ c, IsCancelledOn es c ∧ origin[c]? = some s

theorem groupCancelled_iff (hl : Lineage es origin t) (hr : Raising es origin t)
    (hi : origin[i]? = some s) : GroupCancelled es i ↔ t.raised s = true := by
  constructor
  · rintro ⟨c, hcancel, hgroup⟩
    obtain ⟨r, hc, hraised⟩ := hr.sound c hcancel
    rw [hl.origin_eq hgroup, hi] at hc
    cases hc
    exact hraised
  · intro hraised
    obtain ⟨c, hcancel, hc⟩ := hr.complete s hraised
    exact ⟨c, hcancel, hl.group c i s hc hi⟩

theorem getElem?_extend (hext : origin <+: origin') (hi : origin[i]? = some s) :
    origin'[i]? = some s := by
  obtain ⟨rest, rfl⟩ := hext
  rw [List.getElem?_append_left (List.getElem?_eq_some_iff.1 hi).1, hi]

theorem Raising.extend (h : Raising es origin t) (hext : origin <+: origin') :
    Raising es origin' t := by
  refine ⟨fun c hc => ?_, fun s hs => ?_⟩
  · obtain ⟨s, hs, hraised⟩ := h.sound c hc
    exact ⟨s, getElem?_extend hext hs, hraised⟩
  · obtain ⟨c, hcancel, hc⟩ := h.complete s hs
    exact ⟨c, hcancel, getElem?_extend hext hc⟩

theorem Raising.keep (h : Raising es origin t) (hraised : ∀ s, t'.raised s = t.raised s)
    (he : ∀ c, e.1 = .cancel c → ¬ IsLive es c) : Raising (es ++ [e]) origin t' := by
  have hcancel (c : Nat) : IsCancelledOn (es ++ [e]) c ↔ IsCancelledOn es c := by
    rw [isCancelledOn_concat_iff, or_iff_left]
    exact fun h => he c h.1 h.2
  refine ⟨fun c hc => ?_, fun s hs => ?_⟩
  · simpa only [hraised] using h.sound c ((hcancel c).1 hc)
  · simpa only [hcancel] using h.complete s ((hraised s).symm.trans hs)

@[simp] theorem raised_append (t : Tokens) (s : Nat) :
    (t.signals ++ [false]).getD s false = t.raised s := by
  rw [raised, List.getD_eq_getElem?_getD, List.getD_eq_getElem?_getD, List.getElem?_append]
  split
  · rfl
  next h =>
    rw [List.getElem?_eq_none (Nat.le_of_not_lt h)]
    cases h : [false][s - t.signals.length]? with
    | none => rfl
    | some b => simpa using List.mem_of_getElem? h

theorem Raising.step (hl : Lineage es origin t) (h : Raising es origin t)
    (hc : t.Change op a t') : Raising (es ++ [(op, a)]) origin t' := by
  cases hc with
  | create => exact h.keep (raised_append t) nofun
  | clone | drop | wait | finish => exact h.keep (fun _ => rfl) nofun
  | @cancel i s hi =>
    have horigin := hl.own i s hi
    have hraised (r : Nat) : (t.signals.set s true).getD r false = (r == s || t.raised r) := by
      rw [← raised_cancel hi (hl.known s (List.mem_of_getElem? horigin)) r]
      simp only [Tokens.step, hi, raised]
    refine ⟨fun c hcancel => ?_, fun r hr => ?_⟩
    · obtain hold | ⟨heq, -⟩ := isCancelledOn_concat_iff.1 hcancel
      · obtain ⟨r, hr, hup⟩ := h.sound c hold
        exact ⟨r, hr, by rw [raised, hraised, hup, Bool.or_true]⟩
      · cases heq
        exact ⟨s, horigin, by rw [raised, hraised, beq_self_eq_true, Bool.true_or]⟩
    · rw [raised, hraised, Bool.or_eq_true, beq_iff_eq] at hr
      obtain rfl | hr := hr
      · exact ⟨i, isCancelledOn_concat_iff.2 (.inr ⟨rfl, (hl.live i).2 ⟨_, hi⟩⟩), horigin⟩
      · obtain ⟨c, hcancel, hc⟩ := h.complete r hr
        exact ⟨c, isCancelledOn_concat_iff.2 (.inl hcancel), hc⟩
  | idle hidle ha =>
    refine h.keep (fun _ => rfl) ?_
    rintro c rfl hlive
    obtain ⟨s, hs⟩ := (hl.live c).1 hlive
    cases hs.symm.trans hidle

/-- A waiter has the signal of its token, and has finished exactly if a poll found that raised. -/
def Waiting (es : List Event) (origin : List Nat) (t : Tokens) : Prop :=
  ∀ w i, WaitsFor es w i → ∃ s finished, origin[i]? = some s ∧
    t.waiters[w]? = some ⟨s, finished⟩ ∧ (finished = true ↔ IsPolledLate es w i)

theorem Waiting.extend (h : Waiting es origin t) (hext : origin <+: origin') :
    Waiting es origin' t := by
  intro w i hw
  obtain ⟨s, finished, hi, hx⟩ := h w i hw
  exact ⟨s, finished, getElem?_extend hext hi, hx⟩

theorem Waiting.keep (h : Waiting es origin t) (hwaiters : t'.waiters = t.waiters)
    (hwait : ∀ w i, e ≠ (.wait i, .index w))
    (hpoll : ∀ w i, e.1 = .poll w → WaitsFor es w i → GroupCancelled es i →
      IsPolledLate es w i) : Waiting (es ++ [e]) origin t' := by
  intro w i hw
  rw [waitsFor_concat_iff, or_iff_left (hwait w i)] at hw
  obtain ⟨s, finished, hi, hx, hfinished⟩ := h w i hw
  refine ⟨s, finished, hi, hwaiters ▸ hx, hfinished.trans ?_⟩
  rw [isPolledLate_concat_iff]
  exact ⟨.inl, fun hlate => hlate.elim id fun ⟨heq, hw, hgroup⟩ => hpoll w i heq hw hgroup⟩

theorem IsPolledLate.waitsFor (h : IsPolledLate es w i) : WaitsFor es w i := by
  obtain ⟨before, e, after, rfl, -, hw, -⟩ := h
  exact List.mem_append_left _ hw

theorem Waiting.wait (h : Waiting es origin t) (hi : origin[i]? = some s) :
    Waiting (es ++ [(.wait i, .index t.waiters.length)]) origin
      { t with waiters := t.waiters ++ [⟨s, false⟩] } := by
  intro w j hw
  rw [isPolledLate_concat_iff, or_iff_left (fun hpoll => nomatch hpoll.1)]
  simp only [getElem?_concat_eq_some_iff]
  obtain hw | heq := waitsFor_concat_iff.1 hw
  · obtain ⟨r, finished, hj, hx, hfinished⟩ := h w j hw
    exact ⟨r, finished, hj, .inl hx, hfinished⟩
  · cases heq
    refine ⟨s, false, hi, .inr ⟨rfl, rfl⟩, nofun, fun hpolled => ?_⟩
    -- nobody can have polled a waiter that was not there
    obtain ⟨r, finished, -, hx, -⟩ := h _ i hpolled.waitsFor
    simp at hx

theorem Waiting.finish (hl : Lineage es origin t) (hr : Raising es origin t)
    (h : Waiting es origin t) (hx : t.waiters[w]? = some ⟨s, false⟩) (hs : t.raised s = true) :
    Waiting (es ++ [(.poll w, .polled .ready)]) origin
      { t with waiters := t.waiters.set w ⟨s, true⟩ } := by
  intro v j hv
  rw [waitsFor_concat_iff, or_iff_left nofun] at hv
  rw [isPolledLate_concat_iff]
  obtain ⟨r, finished, hj, hold, hfinished⟩ := h v j hv
  by_cases hvw : v = w
  · subst hvw
    cases hx.symm.trans hold
    have hcancelled : GroupCancelled es j := (groupCancelled_iff hl hr hj).2 hs
    exact ⟨s, true, hj, List.getElem?_set_self (List.getElem?_eq_some_iff.1 hx).1,
      fun _ => .inr ⟨rfl, hv, hcancelled⟩, fun _ => rfl⟩
  · refine ⟨r, finished, hj, (List.getElem?_set_ne (Ne.symm hvw)).trans hold, ?_⟩
    rw [hfinished, or_iff_left]
    exact fun hpoll => hvw (Op.poll.inj hpoll.1).symm

theorem Waiting.step (hl : Lineage es origin t) (hr : Raising es origin t)
    (h : Waiting es origin t) (hc : t.Change op a t') :
    Waiting (es ++ [(op, a)]) origin t' := by
  cases hc with
  | create | clone | cancel | drop => exact h.keep rfl nofun nofun
  | wait hi => exact h.wait (hl.own _ _ hi)
  | finish hx hs => exact h.finish hl hr hx hs
  | idle hidle ha =>
    refine h.keep rfl (fun w i heq => ?_) fun w i heq hw hgroup => ?_
    · exact ha w (Prod.mk.inj heq).2
    · -- a poll that is idle though the signal is raised has been answered before
      obtain rfl : op = .poll w := heq
      obtain ⟨s, finished, hi, hx, hfinished⟩ := h w i hw
      cases finished with
      | true => exact hfinished.1 rfl
      | false =>
        have hraised := (groupCancelled_iff hl hr hi).1 hgroup
        rw [show t.raised s = false from hidle s hx] at hraised
        cases hraised

/-- What a state has to do with the events that led to it. -/
structure Accounts (es : List Event) (origin : List Nat) (t : Tokens) : Prop where
  lineage : Lineage es origin t
  raising : Raising es origin t
  waiting : Waiting es origin t

theorem Accounts.empty : Accounts [] [] empty := by
  refine ⟨.empty, ⟨?_, ?_⟩, ?_⟩
  · simp [IsCancelledOn]
  · simp [raised, Tokens.empty]
  · simp [Waiting, WaitsFor]

theorem Accounts.step (h : Accounts es origin t) (op : Op) : ∃ origin', origin <+: origin' ∧
    Accounts (es ++ [(op, (t.step op).2)]) origin' (t.step op).1 := by
  have hc := change_step t op
  obtain ⟨origin', hext, hlineage⟩ := h.lineage.step hc
  exact ⟨origin', hext, hlineage, (h.raising.step h.lineage hc).extend hext,
    (h.waiting.step h.lineage h.raising hc).extend hext⟩

theorem Accounts.run (h : Accounts es origin t) (ops : List Op) : ∃ origin', origin <+: origin' ∧
    Accounts (es ++ t.events ops) origin' (t.run ops) := by
  induction ops generalizing t es origin with
  | nil =>
    refine ⟨origin, List.prefix_rfl, ?_⟩
    rwa [events, List.append_nil]
  | cons op ops ih =>
    obtain ⟨origin', hext, hstep⟩ := h.step op
    obtain ⟨origin'', hext', hrun⟩ := ih hstep
    rw [List.append_assoc] at hrun
    exact ⟨origin'', hext.trans hext', hrun⟩

theorem accounts_run (ops : List Op) :
    ∃ origin, Accounts (Tokens.empty.events ops) origin (Tokens.empty.run ops) := by
  obtain ⟨origin, -, h⟩ := Accounts.empty.run ops
  exact ⟨origin, h⟩

/-- Tokens are never brought together later. -/
theorem Lineage.sameGroup_iff {es' : List Event} (h : Lineage es origin t)
    (h' : Lineage es' origin' t') (hext : origin <+: origin') (hsub : es ⊆ es') (hi : IsMade es i)
    (hj : IsMade es j) : SameGroup es' i j ↔ SameGroup es i j := by
  refine ⟨fun hgroup => ?_, SameGroup.mono hsub⟩
  obtain ⟨s, hs⟩ : ∃ s, origin[i]? = some s := ⟨_, List.getElem?_eq_getElem (h.made i hi)⟩
  obtain ⟨r, hr⟩ : ∃ r, origin[j]? = some r := ⟨_, List.getElem?_eq_getElem (h.made j hj)⟩
  have heq := h'.origin_eq hgroup
  rw [getElem?_extend hext hs, getElem?_extend hext hr] at heq
  cases heq
  exact h.group i j s hs hr

end DuplexRpc.Tokens
