import DuplexRpc.Client.State
import DuplexRpc.Proofs.Pending.Steps
import Mathlib.Algebra.Group.Nat.Defs
import Mathlib.Logic.Function.Basic
import Mathlib.Logic.Relation

/-!
Who has which entry. An activity takes a number, registers under the id of that number, and leaves.
As long as no number comes twice, every open entry belongs to exactly one activity that has not left
yet, and a slot is never given up while its owner still waits for it.
-/
namespace DuplexRpc

/-- Where an activity stands with the table of waiting calls. -/
inductive Stand where
  | out
  /-- it has an id and is about to register under it -/
  | ticket (id : String)
  /-- the registration with this number is its own -/
  | holds (n : Nat)
  deriving DecidableEq

/-- The table, how many ids have been given out, and the stand of every activity. -/
structure Books where
  issued : Nat
  pending : PendingTable
  stand : TaskId → Stand

namespace Shared

/-- Two numbers of 64 bits have different ids. -/
theorem callId_injective {m n : Nat} (hm : m < 2 ^ 64) (hn : n < 2 ^ 64)
    (h : callId m = callId n) : m = n := by
  have hrepr : (UInt64.ofNat m).toNat.repr = (UInt64.ofNat n).toNat.repr :=
    (String.append_right_inj _).1 h
  rw [UInt64.toNat_ofNat_of_lt' hm, UInt64.toNat_ofNat_of_lt' hn, Nat.repr_eq_ofList_toDigits,
    Nat.repr_eq_ofList_toDigits, String.ofList_inj] at hrepr
  -- reading the digits back gives the number
  rw [← Nat.ofDigitChars_ten_toDigits (n := m), hrepr, Nat.ofDigitChars_ten_toDigits]

end Shared

namespace PendingTable

/-- No two registrations have one id. -/
def Distinct (t : PendingTable) : Prop :=
  ∀ n m id g g', t.face? n = some (id, g) → t.face? m = some (id, g') → n = m

/-- The slot of a registration waits or has an outcome. -/
def Live (t : PendingTable) (n : Nat) : Prop :=
  t.slot? n = some .waiting ∨ ∃ outcome, t.slot? n = some (.answered outcome)

theorem Live.of_deliver {t : PendingTable} {n : Nat} (h : t.Live n) (outcome : Outcome)
    {s : Option Slot} (hs : s = (t.slot? n).map (·.deliver outcome) ∨ s = t.slot? n) :
    s = some .waiting ∨ ∃ outcome, s = some (.answered outcome) := by
  rcases hs with rfl | rfl
  · rcases h with h | ⟨o, h⟩
    · exact .inr ⟨outcome, by rw [h]; rfl⟩
    · exact .inr ⟨o, by rw [h]; rfl⟩
  · exact h

theorem Live.resolve {t : PendingTable} {n : Nat} (h : t.Live n) (id : String)
    (outcome : Outcome) : (t.resolve id outcome).2.Live n := by
  refine h.of_deliver outcome ?_
  rw [slot?_resolve]
  split
  · exact .inl rfl
  · exact .inr rfl

theorem Live.failAll {t : PendingTable} {n : Nat} (h : t.Live n) (failure : Failure) :
    (t.failAll failure).2.Live n := by
  refine h.of_deliver (.error failure) ?_
  rw [slot?_failAll]
  split
  · exact .inl rfl
  · exact .inr rfl

/-- The owner of a registration leaves: first its receiver goes, then its guard. -/
def leave (t : PendingTable) (n : Nat) : PendingTable := (t.dropReceiver n).dropGuard n

theorem face?_leave {t : PendingTable} {n : Nat} {id : String} (h : t.face? n = some (id, true))
    (k : Nat) : (t.leave n).face? k = if k = n then some (id, false) else t.face? k := by
  rw [leave, face?_dropGuard, dropReceiver, face?_updateSlot]
  by_cases hk : n = k
  · subst hk
    simp [h]
  · simp [hk, Ne.symm hk]

/-- The others keep their slots, as the entry that the guard clears is its own. -/
theorem slot?_leave {t : PendingTable} (hs : t.Sound) (hd : t.Distinct) {n : Nat} {id : String}
    (h : t.face? n = some (id, true)) {k : Nat} (hk : k ≠ n) : (t.leave n).slot? k = t.slot? k := by
  have howner : (t.dropReceiver n).find? id ≠ some k := by
    intro hfind
    obtain ⟨r, hr, hid, -, -⟩ := hs.openAs (show t.find? id = some k from hfind)
    have hface : t.face? k = some (id, r.guarded) := by simp [face?, hr, hid]
    exact hk (hd k n id _ _ hface h)
  have hguard : (t.dropReceiver n).face? n = some (id, true) := (face?_updateSlot ..).trans h
  rw [leave, dropGuard_of_guarded hguard, slot?_unguard, remove, slot?_close, if_neg howner,
    dropReceiver, slot?_updateSlot, if_neg (Ne.symm hk)]

theorem Sound.leave {t : PendingTable} (hs : t.Sound) (n : Nat) : (t.leave n).Sound :=
  (hs.step (.dropReceiver n)).step (.dropGuard n)

end PendingTable

namespace Books

/-- The activity comes to stand elsewhere. -/
def move (b : Books) (t : TaskId) (x : Stand) : Books :=
  { b with stand := Function.update b.stand t x }

/-- One change of the books. -/
inductive Deal : Books → Books → Prop where
  | allocate (b : Books) (t : TaskId) (h : b.stand t = .out) :
    Deal b { b.move t (.ticket (Shared.callId (b.issued + 1))) with issued := b.issued + 1 }
  | register (b : Books) (t : TaskId) {id : String} {n : Nat} {pending : PendingTable}
    (h : b.stand t = .ticket id) (hr : b.pending.register id = .ok (n, pending)) :
    Deal b { b.move t (.holds n) with pending }
  | refuse (b : Books) (t : TaskId) {id : String} (h : b.stand t = .ticket id) :
    Deal b (b.move t .out)
  | leave (b : Books) (t : TaskId) {n : Nat} (h : b.stand t = .holds n) :
    Deal b { b.move t .out with pending := b.pending.leave n }
  | resolve (b : Books) (id : String) (outcome : Outcome) :
    Deal b { b with pending := (b.pending.resolve id outcome).2 }
  | failAll (b : Books) (failure : Failure) :
    Deal b { b with pending := (b.pending.failAll failure).2 }

abbrev Deals : Books → Books → Prop := Relation.ReflTransGen Deal

/-- The ids that have been given out are those of different numbers, each id belongs to one activity
or one registration, and each registration that is still guarded to one activity. -/
structure Kept (b : Books) : Prop where
  sound : b.pending.Sound
  distinct : b.pending.Distinct
  numbered : ∀ n id g, b.pending.face? n = some (id, g) → ∃ k ≤ b.issued, id = Shared.callId k
  ticketNumbered : ∀ t id, b.stand t = .ticket id → ∃ k ≤ b.issued, id = Shared.callId k
  ticketFresh : ∀ t id, b.stand t = .ticket id → ∀ n g, b.pending.face? n ≠ some (id, g)
  ticketUnique : ∀ t u id, b.stand t = .ticket id → b.stand u = .ticket id → t = u
  holdsUnique : ∀ t u n, b.stand t = .holds n → b.stand u = .holds n → t = u
  held : ∀ t n, b.stand t = .holds n → ∃ id, b.pending.face? n = some (id, true)
  live : ∀ t n, b.stand t = .holds n → b.pending.Live n
  owned : ∀ n id, b.pending.face? n = some (id, true) → ∃ t, b.stand t = .holds n

variable {b b' : Books}

theorem Deal.issued_le (h : Deal b b') : b.issued ≤ b'.issued := by
  cases h with
  | allocate => exact Nat.le_succ _
  | _ => exact Nat.le_refl _

theorem Deals.issued_le (h : Deals b b') : b.issued ≤ b'.issued := by
  induction h with
  | refl => exact Nat.le_refl _
  | tail _ h ih => exact Nat.le_trans ih h.issued_le

@[grind =] theorem pending_move (b : Books) (t : TaskId) (x : Stand) :
    (b.move t x).pending = b.pending := rfl

@[grind =] theorem issued_move (b : Books) (t : TaskId) (x : Stand) :
    (b.move t x).issued = b.issued := rfl

@[grind =] theorem stand_move (b : Books) (t u : TaskId) (x : Stand) :
    (b.move t x).stand u = if u = t then x else b.stand u :=
  Function.update_apply ..

theorem Kept.allocate (h : b.Kept) {t : TaskId} (ht : b.stand t = .out)
    (hlt : b.issued + 1 < 2 ^ 64) :
    Kept { b.move t (.ticket (Shared.callId (b.issued + 1))) with issued := b.issued + 1 } := by
  have hnew : ∀ k ≤ b.issued, Shared.callId (b.issued + 1) ≠ Shared.callId k := by
    intro k hk heq
    have := Shared.callId_injective hlt (by omega) heq
    omega
  obtain ⟨hsound, hdistinct, hnums, htickets, hfresh, hunique, hholds, hheld, hlive, howned⟩ := h
  refine ⟨hsound, hdistinct, ?_, ?_, ?_, ?_, ?_, ?_, ?_, fun m id' hm => ?_⟩
  case refine_8 =>
    obtain ⟨u, hu⟩ := howned m id' hm
    exact ⟨u, by grind⟩
  all_goals grind

theorem Kept.register (h : b.Kept) {t : TaskId} {id : String} {n : Nat} {pending : PendingTable}
    (ht : b.stand t = .ticket id) (hr : b.pending.register id = .ok (n, pending)) :
    Kept { b.move t (.holds n) with pending } := by
  have hface := PendingTable.face?_register hr
  have hslot := PendingTable.slot?_register hr
  have hnone (f) : b.pending.face? n ≠ some f := fun hn =>
    Nat.ne_of_lt (PendingTable.lt_length_of_face? hn) (PendingTable.length_register hr).1
  obtain ⟨hsound, hdistinct, hnums, htickets, hfresh, hunique, hholds, hheld, hlive, howned⟩ := h
  refine ⟨hsound.register hr, ?_, ?_, ?_, ?_, ?_, ?_, ?_, ?_, fun m id' hm => ?_⟩
  case refine_1 =>
    unfold PendingTable.Distinct at *
    grind
  case refine_9 =>
    by_cases hmn : m = n
    · exact ⟨t, by grind⟩
    · obtain ⟨u, hu⟩ := howned m id' (by grind)
      exact ⟨u, by grind⟩
  all_goals grind [PendingTable.Live]

theorem Kept.refuse (h : b.Kept) {t : TaskId} {id : String} (ht : b.stand t = .ticket id) :
    Kept (b.move t .out) := by
  obtain ⟨hsound, hdistinct, hnums, htickets, hfresh, hunique, hholds, hheld, hlive, howned⟩ := h
  refine ⟨hsound, hdistinct, hnums, ?_, ?_, ?_, ?_, ?_, ?_, fun m id' hm => ?_⟩
  case refine_7 =>
    obtain ⟨u, hu⟩ := howned m id' hm
    exact ⟨u, by grind⟩
  all_goals grind

theorem Kept.leave (h : b.Kept) {t : TaskId} {n : Nat} (ht : b.stand t = .holds n) :
    Kept { b.move t .out with pending := b.pending.leave n } := by
  obtain ⟨id, hid⟩ := h.held t n ht
  have hface := PendingTable.face?_leave hid
  have hslot (k) (hk : k ≠ n) := PendingTable.slot?_leave h.sound h.distinct hid hk
  obtain ⟨hsound, hdistinct, hnums, htickets, hfresh, hunique, hholds, hheld, hlive, howned⟩ := h
  refine ⟨hsound.leave n, ?_, ?_, ?_, ?_, ?_, ?_, ?_, ?_, fun m id' hm => ?_⟩
  case refine_1 =>
    unfold PendingTable.Distinct at *
    grind
  case refine_9 =>
    obtain ⟨u, hu⟩ := howned m id' (by grind)
    exact ⟨u, by grind⟩
  all_goals grind [PendingTable.Live]

/-- Outcomes for the slots change nothing about who has what. -/
theorem Kept.deliver (h : b.Kept) {pending : PendingTable} (hsound : pending.Sound)
    (hface : ∀ n, pending.face? n = b.pending.face? n)
    (hlive : ∀ n, b.pending.Live n → pending.Live n) : Kept { b with pending } where
  sound := hsound
  distinct n m id g g' hn hm := h.distinct n m id g g' (hface n ▸ hn) (hface m ▸ hm)
  numbered n id g hn := h.numbered n id g (hface n ▸ hn)
  ticketNumbered := h.ticketNumbered
  ticketFresh t _ ht n g hn := h.ticketFresh t _ ht n g (hface n ▸ hn)
  ticketUnique := h.ticketUnique
  holdsUnique := h.holdsUnique
  held t n ht := (h.held t n ht).imp fun _ hid => (hface n).trans hid
  live t n ht := hlive n (h.live t n ht)
  owned n id hn := h.owned n id (hface n ▸ hn)

theorem Kept.deal (h : b.Kept) (hd : Deal b b') (hlt : b'.issued < 2 ^ 64) : b'.Kept := by
  cases hd with
  | allocate t ht => exact h.allocate ht hlt
  | register t ht hr => exact h.register ht hr
  | refuse t ht => exact h.refuse ht
  | leave t ht => exact h.leave ht
  | resolve id outcome =>
    exact h.deliver (h.sound.close id _) (PendingTable.face?_close _ id _) fun n hn =>
      hn.resolve id outcome
  | failAll failure =>
    exact h.deliver (.failAll _ failure) (PendingTable.face?_failAll _ failure) fun n hn =>
      hn.failAll failure

/-- What stays of the books: registrations keep their numbers and ids, and nobody comes to own one
that was there before. -/
structure Continues (b b' : Books) : Prop where
  length : b.pending.registrations.length ≤ b'.pending.registrations.length
  owner : ∀ t n, b'.stand t = .holds n →
    b.stand t = .holds n ∨ b.pending.registrations.length ≤ n
  face : ∀ n id g, b.pending.face? n = some (id, g) → ∃ g', b'.pending.face? n = some (id, g')

theorem Continues.refl (b : Books) : b.Continues b :=
  ⟨Nat.le_refl _, fun _ _ => .inl, fun _ _ g h => ⟨g, h⟩⟩

theorem Continues.trans {b'' : Books} (h : b.Continues b') (h' : b'.Continues b'') :
    b.Continues b'' where
  length := Nat.le_trans h.length h'.length
  owner t n ht := (h'.owner t n ht).elim (h.owner t n) fun hle => .inr (Nat.le_trans h.length hle)
  face n id g hn :=
    have ⟨g', hn'⟩ := h.face n id g hn
    h'.face n id g' hn'

theorem Continues.of_face {pending : PendingTable}
    (hlength : b.pending.registrations.length ≤ pending.registrations.length)
    (hface : ∀ n, pending.face? n = b.pending.face? n) : b.Continues { b with pending } :=
  ⟨hlength, fun _ _ => .inl, fun n _ g hn => ⟨g, (hface n).trans hn⟩⟩

theorem Kept.continues (h : b.Kept) (hd : Deal b b') : b.Continues b' := by
  cases hd with
  | allocate t ht | refuse t ht =>
    exact ⟨Nat.le_refl _, fun u n hu => by grind, fun n id g hn => ⟨g, hn⟩⟩
  | @register t id n pending ht hr =>
    obtain ⟨hn, hlength⟩ := PendingTable.length_register hr
    have hface := PendingTable.face?_register hr
    refine ⟨by simp only [hlength]; omega, fun u k hu => ?_, fun k id' g hk => ?_⟩
    · by_cases htu : u = t
      · simp only [stand_move, htu, if_true, Stand.holds.injEq] at hu
        exact .inr (by omega)
      · simp only [stand_move, htu, if_false] at hu
        exact .inl hu
    · have hne : k ≠ n := by
        have := PendingTable.lt_length_of_face? hk
        omega
      exact ⟨g, by simp only [hface, if_neg hne, hk]⟩
  | @leave t n ht =>
    obtain ⟨id, hid⟩ := h.held t n ht
    have hface := PendingTable.face?_leave hid
    refine ⟨?_, fun u k hu => by grind, fun k id' g hk => ?_⟩
    · exact Nat.le_trans (PendingTable.length_step _ (.dropReceiver n))
        (PendingTable.length_step _ (.dropGuard n))
    · by_cases hkn : k = n
      · subst hkn
        rw [hid] at hk
        cases hk
        exact ⟨false, by simp [hface]⟩
      · exact ⟨g, by simp only [hface, if_neg hkn, hk]⟩
  | resolve id outcome =>
    exact .of_face (PendingTable.length_step _ (.resolve id outcome))
      (PendingTable.face?_close _ id _)
  | failAll failure =>
    exact .of_face (PendingTable.length_step _ (.failAll failure))
      (PendingTable.face?_failAll _ failure)

theorem Kept.deals (h : b.Kept) (hd : Deals b b') (hlt : b'.issued < 2 ^ 64) :
    b'.Kept ∧ b.Continues b' := by
  induction hd with
  | refl => exact ⟨h, .refl b⟩
  | tail _ hlast ih =>
    obtain ⟨hkept, hcontinues⟩ := ih (Nat.lt_of_le_of_lt hlast.issued_le hlt)
    exact ⟨hkept.deal hlast hlt, hcontinues.trans (hkept.continues hlast)⟩

/-- Books in which nobody has done anything. -/
def blank : Books := ⟨0, .empty, fun _ => .out⟩

theorem Kept.blank : Books.blank.Kept := by
  have hface (n : Nat) : PendingTable.empty.face? n = none := rfl
  refine ⟨.empty, ?_, ?_, ?_, ?_, ?_, ?_, ?_, ?_, ?_⟩
  all_goals simp [Books.blank, PendingTable.Distinct, hface]

/-- What is open under an id belongs to an activity that has not left. -/
theorem Kept.exists_owner (h : b.Kept) {id : String} {n : Nat}
    (hopen : b.pending.find? id = some n) :
    b.pending.face? n = some (id, true) ∧ ∃ t, b.stand t = .holds n := by
  obtain ⟨r, hr, hid, hguarded, -⟩ := h.sound.openAs hopen
  have hface : b.pending.face? n = some (id, true) := by
    simp [PendingTable.face?, hr, hid, hguarded]
  exact ⟨hface, h.owned n id hface⟩

/-- Once the owner of a registration has left, nothing is open under its id any more. -/
theorem Kept.find?_of_left (h : b.Kept) (h' : b'.Kept) (hc : b.Continues b') {t : TaskId} {n : Nat}
    {id : String} {g : Bool} (ht : b.stand t = .holds n) (hid : b.pending.face? n = some (id, g))
    (hleft : b'.stand t ≠ .holds n) : b'.pending.find? id = none := by
  cases hfind : b'.pending.find? id with
  | none => rfl
  | some m =>
    obtain ⟨hface, u, hu⟩ := h'.exists_owner hfind
    obtain ⟨g', hface'⟩ := hc.face n id g hid
    have hm : m = n := h'.distinct m n id _ _ hface hface'
    subst hm
    have hlt := PendingTable.lt_length_of_face? hid
    rcases hc.owner u m hu with hu' | hle
    · exact absurd (h.holdsUnique t u m ht hu' ▸ hu) hleft
    · omega

theorem Kept.size_eq_zero (h : b.Kept) (hout : ∀ t n, b.stand t ≠ .holds n) :
    b.pending.size = 0 := by
  refine List.length_eq_zero_iff.2 (List.eq_nil_iff_forall_not_mem.2 fun e he => ?_)
  obtain ⟨-, t, ht⟩ := h.exists_owner (h.sound.find?_eq_some_iff.2 he)
  exact hout t _ ht

end Books
end DuplexRpc
