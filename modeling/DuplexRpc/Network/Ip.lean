import DuplexRpc.Text.Cut

/-!
Numeric host addresses, their readings and their written forms.
-/
namespace DuplexRpc

inductive Ip where
  | v4 (number : UInt32)
  | v6 (groups : Vector UInt16 8)
  deriving DecidableEq

namespace Ip

/-- The pieces between the separators, one more than there are separators. -/
def pieces (sep : Char) : List Char → List (List Char)
  | [] => [[]]
  | c :: cs =>
    match pieces sep cs with
    | [] => [[c]]
    | p :: ps => if c = sep then [] :: p :: ps else (c :: p) :: ps

theorem pieces_ne_nil (sep : Char) (s : List Char) : pieces sep s ≠ [] := by
  cases s with
  | nil => simp [pieces]
  | cons c cs =>
    rw [pieces]
    split
    · simp
    · split <;> simp

/-- The pieces put together again. -/
theorem intercalate_pieces (sep : Char) (s : List Char) : [sep].intercalate (pieces sep s) = s := by
  induction s with
  | nil => rfl
  | cons c cs ih =>
    rw [pieces]
    split
    · next h => exact absurd h (pieces_ne_nil sep cs)
    · next p ps h =>
      rw [h] at ih
      split
      · next hc => simp [List.intercalate_cons_cons, ih, hc]
      · cases ps with
        | nil => simpa [List.intercalate_singleton] using ih
        | cons q qs => simpa [List.intercalate_cons_cons] using ih

theorem not_mem_of_mem_pieces {sep : Char} {s p : List Char} (h : p ∈ pieces sep s) : sep ∉ p := by
  induction s generalizing p with
  | nil => simp_all [pieces]
  | cons c cs ih =>
    rw [pieces] at h
    split at h
    · next hn => exact absurd hn (pieces_ne_nil sep cs)
    · next q qs hq =>
      rw [hq] at ih
      split at h
      · rcases List.mem_cons.1 h with rfl | h
        · simp
        · exact ih h
      · next hc =>
        rcases List.mem_cons.1 h with rfl | h
        · simp [Ne.symm hc, ih]
        · exact ih (List.mem_cons_of_mem _ h)

def decimal? (digits : List Char) : Option Nat :=
  if !digits.isEmpty && digits.all Char.isDigit then some (Nat.ofDigitChars 10 digits 0) else none

/-- One of the four parts: at most 255, without leading zeros. -/
def octet? (digits : List Char) : Option Nat := do
  let n ← decimal? digits
  if 255 < n ∨ Nat.toDigits 10 n ≠ digits then none else some n

def ofOctets (a b c d : Nat) : UInt32 := .ofNat (((a * 256 + b) * 256 + c) * 256 + d)

def octets (n : UInt32) : List Nat :=
  [n.toNat / 0x1000000, n.toNat / 0x10000 % 256, n.toNat / 0x100 % 256, n.toNat % 256]

def dotted? (s : List Char) : Option UInt32 := do
  match ← (pieces '.' s).mapM octet? with
  | [a, b, c, d] => some (ofOctets a b c d)
  | _ => none

def hexDigit? (c : Char) : Option Nat :=
  if c.isDigit then some (c.toNat - '0'.toNat)
  else if 'a' ≤ c.toLower ∧ c.toLower ≤ 'f' then some (c.toLower.toNat - 'a'.toNat + 10)
  else none

def group? (digits : List Char) : Option UInt16 := do
  if digits.isEmpty || 4 < digits.length then none
  else
    let n ← digits.foldlM (fun n c => (hexDigit? c).map (16 * n + ·)) 0
    some (.ofNat n)

/-- Groups between colons; the last one may be a dotted address, which makes two. -/
def groups? (dottedEnd : Bool) : List (List Char) → Option (List UInt16)
  | [] => some []
  | [piece] =>
    match if dottedEnd then dotted? piece else none with
    | some n => some [.ofNat (n.toNat / 0x10000), .ofNat (n.toNat % 0x10000)]
    | none => (group? piece).map ([·])
  | piece :: rest => do pure ((← group? piece) :: (← groups? dottedEnd rest))

def side? (dottedEnd : Bool) (s : List Char) : Option (List UInt16) :=
  if s.isEmpty then some [] else groups? dottedEnd (pieces ':' s)

def ofGroups? (groups : List UInt16) : Option (Vector UInt16 8) :=
  if h : groups.length = 8 then some ⟨groups.toArray, by simpa using h⟩ else none

/-- Eight groups, a run of zeros of which may be left out between two colons. -/
def v6? (s : List Char) : Option (Vector UInt16 8) :=
  match Text.cut? [':', ':'] s with
  | none => (groups? true (pieces ':' s)).bind ofGroups?
  | some (head, tail) => do
    let head ← side? false head
    let tail ← side? true tail
    if 7 < head.length + tail.length then none
    else ofGroups? (head ++ List.replicate (8 - head.length - tail.length) 0 ++ tail)

def parse? (s : List Char) : Option Ip :=
  ((dotted? s).map v4).or ((v6? s).map v6)

def dottedText (n : UInt32) : String := ".".intercalate ((octets n).map toString)

/-- The start and length of the longest run of zeros, the first of several. -/
def longestRun (groups : List UInt16) : Nat × Nat :=
  let runAt := fun i => (i, ((groups.drop i).takeWhile (· == 0)).length)
  ((List.range groups.length).map runAt).foldl
    (fun best next => if best.2 < next.2 then next else best) (0, 0)

def groupText (g : UInt16) : String := String.ofList (Nat.toDigits 16 g.toNat)

/-- Groups with the longest run of two or more zeros left out. -/
def groupsText (groups : List UInt16) : String :=
  let (start, length) := longestRun groups
  let join := fun gs => ":".intercalate (gs.map groupText)
  if length < 2 then join groups
  else join (groups.take start) ++ "::" ++ join (groups.drop (start + length))

/-- The dotted address within a mapped one. -/
def mapped? (groups : List UInt16) : Option UInt32 :=
  match groups with
  | [0, 0, 0, 0, 0, 0xffff, high, low] => some (.ofNat (high.toNat * 0x10000 + low.toNat))
  | _ => none

def text : Ip → String
  | v4 n => dottedText n
  | v6 groups =>
    match mapped? groups.toList with
    | some n => "::ffff:" ++ dottedText n
    | none => groupsText groups.toList

def isUnspecified : Ip → Bool
  | v4 n => n == 0
  | v6 groups => groups.toList.all (· == 0)

def unspecified4 : Ip := .v4 0

def unspecified6 : Ip := .v6 (Vector.replicate 8 0)

/-- The value of one part; `some none` for one that exceeds 32 bits. -/
def radixPart? (s : List Char) : Option (Option Nat) :=
  let (radix, digits) := match s with
    | '0' :: 'x' :: rest => (16, rest)
    | '0' :: 'X' :: rest => (16, rest)
    | '0' :: c :: rest => (8, c :: rest)
    | s => (10, s)
  if s.isEmpty then none
  else do
    let n ← digits.foldlM (fun n c => do
      let d ← hexDigit? c
      if d < radix then some (radix * n + d) else none) 0
    some (if n < 0x100000000 then some n else none)

/-- An address in one to four numbers, the last of which fills what is left. -/
def ofNumbers? (numbers : List Nat) : Option UInt32 := do
  let last ← numbers.getLast?
  let front := numbers.dropLast
  if 3 < front.length ∨ front.any (255 < ·) ∨ Nat.pow 256 (4 - front.length) ≤ last then none
  else
    let high := front.foldl (fun n d => n * 256 + d) 0 * Nat.pow 256 (4 - front.length)
    some (.ofNat (high + last))

def ofRadixParts? (parts : List (List Char)) : Option UInt32 := do
  let numbers ← parts.mapM radixPart?
  let numbers ← numbers.mapM id
  ofNumbers? numbers

end Ip
end DuplexRpc
