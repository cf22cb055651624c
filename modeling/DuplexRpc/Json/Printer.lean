import DuplexRpc.Binary64.Shortest
import DuplexRpc.Json.Basic

/-!
The written form of a JSON value: compact, or with one member a line. Only quotes, backslashes and
the controls below U+0020 are escaped.
-/
namespace DuplexRpc

namespace Json

/-- Doubles are plain from five places after the point to sixteen digits before it. -/
def numberLayout : Binary64.Layout := ⟨-5, 15, true, true⟩

def renderInt (n : Int) : List Char :=
  if n < 0 then '-' :: Nat.toDigits 10 n.natAbs else Nat.toDigits 10 n.natAbs

def renderNumber : Number → List Char
  | .integer n _ => renderInt n
  | .double x => numberLayout.write x

def renderChar (c : Char) : List Char :=
  if c = '"' then ['\\', '"']
  else if c = '\\' then ['\\', '\\']
  else if c = '\x08' then ['\\', 'b']
  else if c = '\t' then ['\\', 't']
  else if c = '\n' then ['\\', 'n']
  else if c = '\x0c' then ['\\', 'f']
  else if c = '\r' then ['\\', 'r']
  else if c.toNat < 0x20 then
    ['\\', 'u', '0', '0', (c.toNat / 16).digitChar, (c.toNat % 16).digitChar]
  else [c]

def renderString (s : String) : List Char := '"' :: s.toList.flatMap renderChar ++ ['"']

mutual

def render : Json → List Char
  | null => ['n', 'u', 'l', 'l']
  | bool true => ['t', 'r', 'u', 'e']
  | bool false => ['f', 'a', 'l', 's', 'e']
  | number n => renderNumber n
  | string s => renderString s
  | array [] => ['[', ']']
  | array (item :: items) => '[' :: render item ++ renderItems items
  | object .nil => ['{', '}']
  | object (.cons key _ value rest) =>
    '{' :: renderString key ++ ':' :: render value ++ renderMembers rest

/-- The items behind the first, with the closing bracket. -/
def renderItems : List Json → List Char
  | [] => [']']
  | item :: items => ',' :: render item ++ renderItems items

def renderMembers : {lower : Option String} → Members lower → List Char
  | _, .nil => ['}']
  | _, .cons key _ value rest =>
    ',' :: renderString key ++ ':' :: render value ++ renderMembers rest

end

def toText (j : Json) : String := String.ofList j.render

/-- A line break and the indentation of a level. -/
def lineBreak (level : Nat) : List Char := '\n' :: List.replicate (2 * level) ' '

mutual

/-- The value with one item or member a line, two spaces a level. -/
def renderLines : Nat → Json → List Char
  | _, null => ['n', 'u', 'l', 'l']
  | _, bool true => ['t', 'r', 'u', 'e']
  | _, bool false => ['f', 'a', 'l', 's', 'e']
  | _, number n => renderNumber n
  | _, string s => renderString s
  | _, array [] => ['[', ']']
  | level, array (item :: items) =>
    '[' :: lineBreak (level + 1) ++ renderLines (level + 1) item ++ renderItemLines level items
  | _, object .nil => ['{', '}']
  | level, object (.cons key _ value rest) =>
    '{' :: lineBreak (level + 1) ++ renderString key ++ [':', ' '] ++
      renderLines (level + 1) value ++ renderMemberLines level rest

def renderItemLines : Nat → List Json → List Char
  | level, [] => lineBreak level ++ [']']
  | level, item :: items =>
    ',' :: lineBreak (level + 1) ++ renderLines (level + 1) item ++ renderItemLines level items

def renderMemberLines : Nat → {lower : Option String} → Members lower → List Char
  | level, _, .nil => lineBreak level ++ ['}']
  | level, _, .cons key _ value rest =>
    ',' :: lineBreak (level + 1) ++ renderString key ++ [':', ' '] ++
      renderLines (level + 1) value ++ renderMemberLines level rest

end

def toLines (j : Json) : String := String.ofList (j.renderLines 0)

/-- Members in the order given, each absent one left out. -/
def renderRecord (members : List (String × Option (List Char))) : List Char :=
  let present := members.filterMap fun (key, value) => value.map (renderString key ++ ':' :: ·)
  '{' :: (present.intersperse [',']).flatten ++ ['}']

end Json
end DuplexRpc
