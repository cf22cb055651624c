import DuplexRpc.Proofs.Envelope.IdKey
import DuplexRpc.Proofs.Pending.Sound

/-!
Texts and the calls they answer. A call gets the outcome of the first response with its id, as a
text; all other frames leave it alone. So the order of responses with different ids does not matter.
-/
namespace DuplexRpc

namespace Envelope

/-- The outcome that a text holds for the call with an id. -/
def answer? (id text : String) : Option Outcome :=
  match parse text with
  | some (.response r) => if r.id = .string id then some r.outcome else none
  | _ => none

/-- The id of a text that is a response. -/
def responseId? (text : String) : Option Json :=
  match parse text with
  | some (.response r) => some r.id
  | _ => none

theorem responseId?_of_answer? {id text : String} {outcome : Outcome}
    (h : answer? id text = some outcome) : responseId? text = some (.string id) := by
  unfold answer? at h
  split at h
  next r hr =>
    split at h
    next hid => simp only [responseId?, hr, hid]
    next => cases h
  next => cases h

/-- Among responses with different ids a call finds its own wherever it stands. -/
theorem findSome?_answer?_of_mem {id text : String} {outcome : Outcome} {texts : List String}
    (hdistinct : (texts.filterMap responseId?).Nodup) (hmem : text ∈ texts)
    (h : answer? id text = some outcome) : texts.findSome? (answer? id) = some outcome := by
  induction texts with
  | nil => cases hmem
  | cons first rest ih =>
    rw [List.findSome?_cons]
    cases hfirst : answer? id first with
    | none =>
      rcases List.mem_cons.1 hmem with rfl | hmem
      · rw [h] at hfirst
        cases hfirst
      · refine ih (hdistinct.sublist ?_) hmem
        exact (List.sublist_cons_self first rest).filterMap responseId?
    | some o =>
      rcases List.mem_cons.1 hmem with rfl | hmem
      · rw [h] at hfirst
        exact hfirst.symm
      · rw [List.filterMap_cons_some (responseId?_of_answer? hfirst)] at hdistinct
        have hrest := List.mem_filterMap.2 ⟨text, hmem, responseId?_of_answer? h⟩
        exact absurd hrest (List.nodup_cons.1 hdistinct).1

theorem findSome?_answer?_perm (id : String) {texts texts' : List String}
    (hperm : texts.Perm texts') (hdistinct : (texts.filterMap responseId?).Nodup) :
    texts'.findSome? (answer? id) = texts.findSome? (answer? id) := by
  cases h : texts.findSome? (answer? id) with
  | none =>
    rw [List.findSome?_eq_none_iff] at h ⊢
    exact fun text hmem => h text (hperm.mem_iff.2 hmem)
  | some outcome =>
    obtain ⟨text, hmem, htext⟩ := List.exists_of_findSome?_eq_some h
    exact findSome?_answer?_of_mem ((hperm.filterMap responseId?).nodup_iff.1 hdistinct)
      (hperm.mem_iff.1 hmem) htext

end Envelope

namespace PendingTable

/-- What a text does to the waiting calls. -/
def settleText (t : PendingTable) (text : String) : PendingTable :=
  match Envelope.parse text with
  | some (.response r) => r.settle t
  | _ => t

/-- Every open id is a mark of the client with a number. -/
def Marked (t : PendingTable) : Prop :=
  ∀ e ∈ t.entries, ∃ k : Nat, e.1 = Protocol.clientMark ++ toString k

theorem Marked.of_find? {t : PendingTable} (h : t.Marked) {id : String} {n : Nat}
    (hf : t.find? id = some n) : ∃ k : Nat, id = Protocol.clientMark ++ toString k :=
  h _ (mem_of_find? hf)

variable {t : PendingTable} {id text : String} {n : Nat}

/-- A text resolves the key of its response, or does nothing. -/
theorem settleText_cases (t : PendingTable) (text : String) :
    t.settleText text = t ∨ ∃ r key, Envelope.parse text = some (.response r) ∧
      Envelope.idKey r.id = some key ∧ t.settleText text = (t.resolve key r.outcome).2 := by
  unfold PendingTable.settleText
  split
  next r hr =>
    unfold Response.settle
    split
    next key hkey => exact .inr ⟨r, key, hr, hkey, rfl⟩
    next => exact .inl rfl
  next => exact .inl rfl

theorem Sound.settleText (h : t.Sound) (text : String) : (t.settleText text).Sound := by
  rcases settleText_cases t text with heq | ⟨r, key, -, -, heq⟩
  · rw [heq]
    exact h
  · rw [heq]
    exact h.close key _

theorem Marked.settleText (h : t.Marked) (text : String) : (t.settleText text).Marked := by
  rcases settleText_cases t text with heq | ⟨r, key, -, -, heq⟩
  · rw [heq]
    exact h
  · rw [heq]
    exact fun e he => h e (mem_entries_close.1 he).1

/-- The text that answers a call closes its id with the outcome. -/
theorem settleText_of_answer {outcome : Outcome} (h : Envelope.answer? id text = some outcome) :
    t.settleText text = (t.resolve id outcome).2 := by
  unfold Envelope.answer? at h
  split at h
  next r hr =>
    split at h
    next hid =>
      cases h
      simp only [PendingTable.settleText, hr, Response.settle, hid, Envelope.idKey]
    next => cases h
  next => cases h

/-- Any other text leaves the call where it is. -/
theorem settleText_of_no_answer (hs : t.Sound) (hm : t.Marked) (hf : t.find? id = some n)
    (h : Envelope.answer? id text = none) :
    (t.settleText text).find? id = some n ∧ (t.settleText text).slot? n = t.slot? n := by
  rcases settleText_cases t text with heq | ⟨r, key, hr, hkey, heq⟩
  · rw [heq]
    exact ⟨hf, rfl⟩
  · -- a number has no mark, so only the text of the id has this key
    have hne : r.id ≠ .string id := by
      intro hid
      simp [Envelope.answer?, hr, hid] at h
    have hkeyne : key ≠ id := by
      rintro rfl
      obtain ⟨k, hid⟩ := hm.of_find? hf
      rw [hid, Envelope.idKey_eq_clientMark_iff, ← hid] at hkey
      exact hne hkey
    have hother : t.find? key ≠ some n := fun hkf => hkeyne (hs.find?_injective hkf hf)
    simp [heq, resolve, hkeyne.symm, hother, hf]

/-- What has an outcome keeps it. -/
theorem slot?_settleText_of_answered {outcome : Outcome} (h : t.slot? n = some (.answered outcome))
    (text : String) : (t.settleText text).slot? n = some (.answered outcome) := by
  rcases settleText_cases t text with heq | ⟨r, key, -, -, heq⟩
  · rw [heq, h]
  · rw [heq, slot?_resolve, h]
    split <;> rfl

/-- What is not open is not opened. -/
theorem find?_settleText_of_none (h : t.find? id = none) (text : String) :
    (t.settleText text).find? id = none := by
  rcases settleText_cases t text with heq | ⟨r, key, -, -, heq⟩
  · rw [heq, h]
  · rw [heq, resolve, find?_close, h]
    split <;> rfl

theorem foldl_settleText_of_answered {outcome : Outcome}
    (h : t.slot? n = some (.answered outcome)) (hf : t.find? id = none) (texts : List String) :
    (texts.foldl PendingTable.settleText t).slot? n = some (.answered outcome) ∧
      (texts.foldl PendingTable.settleText t).find? id = none := by
  induction texts generalizing t with
  | nil => exact ⟨h, hf⟩
  | cons text texts ih =>
    exact ih (slot?_settleText_of_answered h text) (find?_settleText_of_none hf text)

/-- After any texts a call has the outcome of the first that answers it, or still waits. -/
theorem foldl_settleText (hs : t.Sound) (hm : t.Marked) (hf : t.find? id = some n)
    (hw : t.slot? n = some .waiting) (texts : List String) :
    (∀ outcome, texts.findSome? (Envelope.answer? id) = some outcome →
      (texts.foldl PendingTable.settleText t).slot? n = some (.answered outcome) ∧
        (texts.foldl PendingTable.settleText t).find? id = none) ∧
    (texts.findSome? (Envelope.answer? id) = none →
      (texts.foldl PendingTable.settleText t).slot? n = some .waiting ∧
        (texts.foldl PendingTable.settleText t).find? id = some n) := by
  induction texts generalizing t with
  | nil => exact ⟨nofun, fun _ => ⟨hw, hf⟩⟩
  | cons text texts ih =>
    rw [List.findSome?_cons, List.foldl_cons]
    cases htext : Envelope.answer? id text with
    | none =>
      obtain ⟨hf', hslot⟩ := settleText_of_no_answer hs hm hf htext
      exact ih (hs.settleText text) (hm.settleText text) hf' (hslot.trans hw)
    | some outcome =>
      refine ⟨fun o ho => ?_, nofun⟩
      cases ho
      have hclosed : (t.settleText text).find? id = none := by
        simp [settleText_of_answer htext, resolve]
      have hanswered : (t.settleText text).slot? n = some (.answered outcome) := by
        simp [settleText_of_answer htext, hf, hw, Slot.deliver]
      exact foldl_settleText_of_answered hanswered hclosed texts

end PendingTable
end DuplexRpc
