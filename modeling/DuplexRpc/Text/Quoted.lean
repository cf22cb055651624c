import DuplexRpc.Text.Invisible

/-!
Quoted text: a text between double quotes in which quotes, backslashes, line controls and every
character without a printed form are escaped. The number of a character is written in hexadecimal.
-/
namespace DuplexRpc.Text

def hexDigits (n : Nat) : List Char := Nat.toDigits 16 n

def quotedChar (c : Char) : List Char :=
  match c with
  | '\x00' => ['\\', '0']
  | '\t' => ['\\', 't']
  | '\r' => ['\\', 'r']
  | '\n' => ['\\', 'n']
  | '"' => ['\\', '"']
  | '\\' => ['\\', '\\']
  | c => if isInvisible c then ['\\', 'u', '{'] ++ hexDigits c.toNat ++ ['}'] else [c]

def quoted (s : String) : String :=
  String.ofList ('"' :: s.toList.flatMap quotedChar ++ ['"'])

example : quotedChar '\x1b' = ['\\', 'u', '{', '1', 'b', '}'] := by decide +kernel

end DuplexRpc.Text
