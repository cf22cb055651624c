import DuplexRpc.Client.Dispatch
import DuplexRpc.Proofs.Json.Numbers

/-!
Which ids have a given key. A number is written with digits, signs, a point and an `e` only, so a
key with any other character is that of a text. This keeps the marks of the two sides apart from
every numeric id.
-/
namespace DuplexRpc

namespace Envelope

/-- A key with a character that no number has is the key of a text only. -/
theorem idKey_eq_some_iff {id : Json} {key : String} (mark : Char) (hmark : mark ∈ key.toList)
    (hnumber : Json.isNumberChar mark = false) : idKey id = some key ↔ id = .string key := by
  cases id with
  | number n =>
    simp only [idKey, Option.some.injEq, reduceCtorEq, iff_false]
    rintro rfl
    rw [String.toList_ofList] at hmark
    exact absurd (Json.isNumberChar_of_mem_renderNumber hmark) (by simp [hnumber])
  | _ => simp [idKey]

/-- The ids of the client's own calls are looked up as texts only. -/
theorem idKey_eq_clientMark_iff (id : Json) (n : Nat) :
    idKey id = some (Protocol.clientMark ++ toString n) ↔
      id = .string (Protocol.clientMark ++ toString n) :=
  idKey_eq_some_iff 'c' (by simp [Protocol.clientMark]) rfl

end Envelope
end DuplexRpc
