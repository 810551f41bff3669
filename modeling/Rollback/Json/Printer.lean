import Rollback.Double.Shortest
import Rollback.Json.Basic

/-!
# Written JSON

Two layouts: compact, without any white space, and indented, with a line for each item or member
and two spaces for each level. Empty arrays and objects stand on one line in both.
-/

namespace Rollback

inductive Layout where
  | compact
  | indented
  deriving DecidableEq

namespace Layout

/-- What stands between two parts at the given level. -/
def lineBreak : Layout → (level : Nat) → List Char
  | compact, _ => []
  | indented, level => '\n' :: List.replicate (2 * level) ' '

def colon : Layout → List Char
  | compact => [':']
  | indented => [':', ' ']

end Layout

namespace Json

def stringChar (c : Char) : List Char :=
  if c = '"' then ['\\', '"']
  else if c = '\\' then ['\\', '\\']
  else if c = '\x08' then ['\\', 'b']
  else if c = '\x0c' then ['\\', 'f']
  else if c = '\n' then ['\\', 'n']
  else if c = '\r' then ['\\', 'r']
  else if c = '\t' then ['\\', 't']
  else if c.toNat < 0x20 then
    ['\\', 'u', '0', '0', Nat.digitChar (c.toNat / 16), Nat.digitChar (c.toNat % 16)]
  else [c]

def stringChars (s : String) : List Char := '"' :: s.toList.flatMap stringChar ++ ['"']

mutual
/-- The text of a document that stands at the given level. -/
def chars (layout : Layout) (level : Nat) : Json → List Char
  | null => "null".toList
  | bool true => "true".toList
  | bool false => "false".toList
  | integer n => Text.signed n
  | double x => if x.isFinite then x.toChars else "null".toList
  | string s => stringChars s
  | array [] => ['[', ']']
  | array (j :: rest) =>
    '[' :: layout.lineBreak (level + 1) ++ chars layout (level + 1) j ++
      itemChars layout (level + 1) rest ++ layout.lineBreak level ++ [']']
  | object [] => ['{', '}']
  | object ((k, j) :: rest) =>
    '{' :: layout.lineBreak (level + 1) ++ stringChars k ++ layout.colon ++
      chars layout (level + 1) j ++ memberChars layout (level + 1) rest ++
      layout.lineBreak level ++ ['}']

/-- The items behind the first. -/
def itemChars (layout : Layout) (level : Nat) : List Json → List Char
  | [] => []
  | j :: rest =>
    ',' :: layout.lineBreak level ++ chars layout level j ++ itemChars layout level rest

/-- The members behind the first. -/
def memberChars (layout : Layout) (level : Nat) : List (String × Json) → List Char
  | [] => []
  | (k, j) :: rest =>
    ',' :: layout.lineBreak level ++ stringChars k ++ layout.colon ++
      chars layout level j ++ memberChars layout level rest
end

def render (j : Json) (layout : Layout) : String := String.ofList (j.chars layout 0)

end Json

end Rollback
