import Rollback.Text.Numeral
import Rollback.Yaml.Glyph

/-!
# Tags and directives

A tag is written `!<uri>`, `!uri` or `!name!uri`. The handle `!name!` has to be declared by a
directive in front of the document. Nothing else about a tag matters to the readers of this library,
so that only its form is checked.
-/

namespace Rollback.Yaml

open Glyph

/-- The characters of a URI; inside of `!<uri>` some more. -/
def isUriChar (verbatim : Bool) (c : Char) : Bool :=
  isNameChar c || ";/?:@&=+$.!~*'()".toList.contains c || (verbatim && ",[]".toList.contains c)

/-- How many octets follow the first one of a character. -/
def octetsBehind? (octet : Nat) : Option Nat :=
  if octet < 0x80 then some 0
  else if 0xc0 ≤ octet && octet < 0xe0 then some 1
  else if 0xe0 ≤ octet && octet < 0xf0 then some 2
  else if 0xf0 ≤ octet && octet < 0xf8 then some 3
  else none

/-- What stands behind a URI. An escaped character is a run of octets, and so many of them are
still to come. -/
def skipUri? (verbatim : Bool) (octets : Nat) : List Glyph → Option (List Glyph)
  | [] => if octets = 0 then some [] else none
  | g :: rest =>
    if g.char = '%' then
      match rest with
      | a :: b :: rest => do
        let octet ← Text.ofHexDigits 0 [a.char, b.char]
        if octets = 0 then skipUri? verbatim (← octetsBehind? octet) rest
        else if 0x80 ≤ octet && octet < 0xc0 then skipUri? verbatim (octets - 1) rest
        else none
      | _ => none
    else if octets ≠ 0 then none
    else if isUriChar verbatim g.char then skipUri? verbatim 0 rest
    else some (g :: rest)

def skipSomeUri? (verbatim : Bool) (gs : List Glyph) : Option (List Glyph) := do
  let rest ← skipUri? verbatim 0 gs
  if rest.length < gs.length then some rest else none

def nameRun (gs : List Glyph) : List Char × List Glyph :=
  let name := gs.takeWhile fun g => isNameChar g.char
  (chars name, gs.drop name.length)

/-- The form of a tag behind its exclamation mark: the handle that has to be declared, if it has
one, and what follows. -/
def tagForm? (gs : List Glyph) : Option (Option String × List Glyph) :=
  if startsWith '<' gs then do
    let rest ← skipSomeUri? true (gs.drop 1)
    if startsWith '>' rest then some (none, rest.drop 1) else none
  else
    let (name, rest) := nameRun gs
    if startsWith '!' rest then
      (skipSomeUri? false (rest.drop 1)).map fun rest =>
        (some (String.ofList ('!' :: name ++ ['!'])), rest)
    else (skipUri? false 0 rest).map fun rest => (none, rest)

/-- Whether a tag can end in front of these glyphs: at a gap, or in a collection at a comma. -/
def endsTag (flow : Bool) (gs : List Glyph) : Bool := atGap gs || (flow && startsWith ',' gs)

/-- A tag behind its exclamation mark, up to where it has to end. -/
def tag? (flow : Bool) (gs : List Glyph) : Option (Option String × List Glyph) := do
  let (handle, rest) ← tagForm? gs
  if endsTag flow rest then some (handle, rest) else none

theorem endsTag_of_tag? {flow : Bool} {gs rest : List Glyph} {handle : Option String}
    (h : tag? flow gs = some (handle, rest)) : endsTag flow rest := by
  obtain ⟨⟨form, left⟩, _, ends⟩ := Option.bind_eq_some_iff.1 h
  by_cases hl : endsTag flow left <;> simp_all

/-- A line in front of a document. -/
inductive Directive where
  | version (major minor : Nat)
  | handle (name : String)
  deriving DecidableEq, Repr

namespace Directive

/-- A number of at most nine digits. -/
def number? (gs : List Glyph) : Option (Nat × List Glyph) :=
  let digits := gs.takeWhile fun g => g.char.isDigit
  if digits.isEmpty || 9 < digits.length then none
  else some (Text.ofDecimal (chars digits), gs.drop digits.length)

def version? (gs : List Glyph) : Option (Directive × List Glyph) := do
  let (major, rest) ← number? gs
  if startsWith '.' rest then
    let (minor, rest) ← number? (rest.drop 1)
    return (version major minor, rest)
  else none

def handle? (gs : List Glyph) : Option (Directive × List Glyph) := do
  if !startsWith '!' gs then none
  else
    let (name, rest) := nameRun (gs.drop 1)
    let (name, rest) ← if startsWith '!' rest then some ('!' :: name ++ ['!'], rest.drop 1)
      else if name.isEmpty then some (['!'], rest)
      else none
    if !rest.head?.any (·.isBlank) then none
    else
      let rest ← skipSomeUri? true (rest.dropWhile (·.isBlank))
      if atGap rest then some (handle (String.ofList name), rest) else none

/-- A directive behind its percent sign, up to the end of its line. -/
def scan? (gs : List Glyph) : Option (Directive × List Glyph) := do
  let (name, rest) := nameRun gs
  if !atGap rest then none
  else
    let rest := rest.dropWhile (·.isBlank)
    let (directive, rest) ← if name = "YAML".toList then version? rest
      else if name = "TAG".toList then handle? rest
      else none
    return (directive, ← endOfLine? rest)

end Directive

end Rollback.Yaml
