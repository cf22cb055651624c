import DuplexRpc.Proofs.Client.Serving

/-!
Which answer a call gets. However many frames a receiver takes, of whatever kind, a waiting call
gets the outcome of the first response with its id.
-/
namespace DuplexRpc.Client

variable {c : Client} {t : TaskId} {g : Generation}

/-- A receiver takes texts one after the other. A call that waits under one of the client's own ids
gets the outcome of the first text that is a response whose id is that text, and is then closed;
without one it still waits. So when the responses have different ids, their order does not
matter. -/
theorem calls_get_first_answer {ops : List PendingTable.Op}
    (hops : PendingTable.empty.run ops = c.shared.pending) (hmarked : c.shared.pending.Marked)
    (ht : c.tasks[t]? = some (.receive g .idle)) :
    (∀ choices c' p, c.steps t choices = some c' → c'.tasks[t]? = some (.receive g p) →
      p.serves = true → ∀ id n, c.shared.pending.find? id = some n →
        c.shared.pending.slot? n = some .waiting →
        (∀ outcome, (choices.flatMap Choice.texts).findSome? (Envelope.answer? id) = some outcome →
          c'.shared.pending.slot? n = some (.answered outcome) ∧
            c'.shared.pending.find? id = none) ∧
        ((choices.flatMap Choice.texts).findSome? (Envelope.answer? id) = none →
          c'.shared.pending.slot? n = some .waiting ∧ c'.shared.pending.find? id = some n)) ∧
    (∀ choices c' p choices' c'' p', c.steps t choices = some c' →
      c'.tasks[t]? = some (.receive g p) → p.serves = true →
      c.steps t choices' = some c'' → c''.tasks[t]? = some (.receive g p') → p'.serves = true →
      ((choices.flatMap Choice.texts).filterMap Envelope.responseId?).Nodup →
      (choices.flatMap Choice.texts).Perm (choices'.flatMap Choice.texts) →
      ∀ id n, c.shared.pending.find? id = some n → c.shared.pending.slot? n = some .waiting →
        c''.shared.pending.slot? n = c'.shared.pending.slot? n) ∧
    (c.shared.outbound.holder = none → c.shared.outbound.queue = [] →
      ∀ texts, ∃ choices c', c.steps t choices = some c' ∧
        choices.flatMap Choice.texts = texts ∧ c'.tasks[t]? = some (.receive g .idle)) := by
  have hsound : c.shared.pending.Sound := hops ▸ PendingTable.sound_run ops
  have hslot (choices c' p) (h : c.steps t choices = some c')
      (ht' : c'.tasks[t]? = some (.receive g p)) (hp : p.serves = true) (id n)
      (hf : c.shared.pending.find? id = some n) (hw : c.shared.pending.slot? n = some .waiting) :=
    steps_pending h ht ht' hp ▸
      PendingTable.foldl_settleText hsound hmarked hf hw (choices.flatMap Choice.texts)
  refine ⟨hslot, ?_, ?_⟩
  · intro choices c' p choices' c'' p' h ht' hp h' ht'' hp' hdistinct hperm id n hf hw
    have hsame := Envelope.findSome?_answer?_perm id hperm hdistinct
    have hone := hslot choices c' p h ht' hp id n hf hw
    have htwo := hslot choices' c'' p' h' ht'' hp' id n hf hw
    rw [hsame] at htwo
    cases hfound : (choices.flatMap Choice.texts).findSome? (Envelope.answer? id) with
    | none => rw [(hone.2 hfound).1, (htwo.2 hfound).1]
    | some outcome => rw [(hone.1 outcome hfound).1, (htwo.1 outcome hfound).1]
  · intro hfree hqueue texts
    obtain ⟨choices, c', h, htexts, -, ht'⟩ := exists_steps_of_texts ht hfree hqueue texts
    exact ⟨choices, c', h, htexts, ht'⟩

/-- A client that receives over its first link while two calls wait. -/
def withTwoCalls : Client where
  shared :=
    { Shared.fresh .standard with pending := .run .empty [.register "c1", .register "c2"] }
  tasks := [.receive 1 .idle]

/-- A response with a number for its id, then two for the second call. -/
def answering : List Choice :=
  ["\x7b\"id\":1,\"result\":\x7b\x7d\x7d",
    "\x7b\"id\":\"c2\",\"result\":\x7b\"ok\":true\x7d\x7d",
    "\x7b\"id\":\"c2\",\"result\":\x7b\x7d\x7d"].map fun text => .frame (.text text)

theorem calls_get_first_answer_answering : ∃ c', withTwoCalls.steps 0 answering = some c' ∧
    c'.shared.pending.slot? 0 = some .waiting ∧
    c'.shared.pending.slot? 1 = some (.answered (.ok (.ofList [("ok", .bool true)]))) := by
  have hmarked : withTwoCalls.shared.pending.Marked := by
    intro e he
    have hmem : e ∈ [("c2", 1), ("c1", 0)] := he
    simp only [List.mem_cons, List.not_mem_nil, or_false] at hmem
    rcases hmem with rfl | rfl
    · exact ⟨2, rfl⟩
    · exact ⟨1, rfl⟩
  have hrun : (withTwoCalls.steps 0 answering).any (fun c' =>
      (c'.tasks[0]?).bind Task.reading? = some 1) = true := by
    decide +kernel
  obtain ⟨c', hsteps, hreading⟩ := Option.any_eq_true _ _ |>.1 hrun
  have ht' := idle_of_reading? (of_decide_eq_true hreading)
  have hops : PendingTable.empty.run [.register "c1", .register "c2"] =
      withTwoCalls.shared.pending := rfl
  have hcalls :=
    (calls_get_first_answer (c := withTwoCalls) hops hmarked rfl).1 answering c' .idle hsteps ht' rfl
  refine ⟨c', hsteps, ?_, ?_⟩
  · exact ((hcalls "c1" 0 rfl rfl).2 (by decide +kernel)).1
  · exact ((hcalls "c2" 1 rfl rfl).1 _ (by decide +kernel)).1

end DuplexRpc.Client
