/-!
# Characters in their places

The layout of a document carries meaning: a block ends where a line begins further to the left, and
a key ends on its line. Each character is therefore paired with its place before anything is read,
and every way to end a line is one character from there on.
-/

namespace Rollback.Yaml

/-- Whether a document may hold this character as it is. -/
def isAllowed (c : Char) : Bool :=
  let n := c.toNat
  n == 0x9 || n == 0xa || n == 0xd || (0x20 ≤ n && n ≤ 0x7e) || n == 0x85 ||
    (0xa0 ≤ n && n ≤ 0xfffd) || 0x10000 ≤ n

def isBlank (c : Char) : Bool := c = ' ' || c = '\t'

/-- The characters that end a line once their places are known. -/
def isBreak (c : Char) : Bool := c = '\n' || c = '\u2028' || c = '\u2029'

/-- The characters of names: letters, digits, the hyphen and the underscore. -/
def isNameChar (c : Char) : Bool := c.isAlphanum || c = '-' || c = '_'

structure Glyph where
  char : Char
  /-- How many octets stand in front of it. -/
  index : Nat
  line : Nat
  column : Nat
  deriving DecidableEq, Repr

namespace Glyph

/-- Finds the places of characters from a place on. The older ways to end a line become `\n`. -/
def place (index line column : Nat) : List Char → List Glyph
  | [] => []
  | '\r' :: '\n' :: cs => ⟨'\n', index, line, column⟩ :: place (index + 2) (line + 1) 0 cs
  | c :: cs =>
    let next := index + c.utf8Size
    if c = '\r' || c = '\u0085' then ⟨'\n', index, line, column⟩ :: place next (line + 1) 0 cs
    else if isBreak c then ⟨c, index, line, column⟩ :: place next (line + 1) 0 cs
    else ⟨c, index, line, column⟩ :: place next line (column + 1) cs

/-- The characters of a text in their places; nothing if one of them is not allowed. -/
def ofText? (text : String) : Option (List Glyph) :=
  if text.toList.all isAllowed then some (place 0 0 0 text.toList) else none

def isBlank (g : Glyph) : Bool := Yaml.isBlank g.char

def isBreak (g : Glyph) : Bool := Yaml.isBreak g.char

def isGap (g : Glyph) : Bool := g.isBlank || g.isBreak

def chars (gs : List Glyph) : List Char := gs.map char

def atGap : List Glyph → Bool
  | [] => true
  | g :: _ => g.isGap

def startsWith (c : Char) (gs : List Glyph) : Bool := (gs.head?.map char) == some c

/-- Whether a line begins here with a mark between documents. -/
def atMark (gs : List Glyph) : Bool :=
  gs.head?.any (·.column = 0) && atGap (gs.drop 3) &&
    (chars (gs.take 3) == "---".toList || chars (gs.take 3) == "...".toList)

/-- Leaves the blanks and the comment at the end of a line; nothing if something else is left. -/
def endOfLine? (gs : List Glyph) : Option (List Glyph) :=
  let gs := gs.dropWhile isBlank
  let gs := if startsWith '#' gs then gs.dropWhile (!·.isBreak) else gs
  match gs with
  | [] => some []
  | g :: rest => if g.isBreak then some rest else none

end Glyph

end Rollback.Yaml
