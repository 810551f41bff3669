import Rollback.Text.Numeral
import Rollback.Yaml.Glyph

/-!
# Scalars

A scalar is a text that is written plainly, between quotes or as a block of lines. Where a plain or
quoted text goes on in another line, the gap between the words is folded: one line break becomes a
space and of several breaks the first is dropped. In a block the lines are kept, or folded where
neither of two neighbours is indented further.
-/

namespace Rollback.Yaml.Scalar

open Glyph

/-- The text of a gap between two words. Behind an escaped line break no break counts as the
first. -/
def fold (escaped : Bool) (gap : List Char) : List Char :=
  match escaped, gap.filter Yaml.isBreak with
  | true, breaks => breaks
  | false, [] => gap
  | false, first :: more =>
    if first ≠ '\n' then first :: more else if more.isEmpty then [' '] else more

/-! ## Plain scalars -/

/-- Whether this glyph ends a plain scalar. -/
def endsPlain (flow : Bool) (g : Glyph) (rest : List Glyph) : Bool :=
  (g.char = ':' && atGap rest) || (flow && g.char ∈ [',', '[', ']', '{', '}'])

/-- Whether the glyph is a colon that could belong to a plain scalar or to the collection. -/
def isAmbiguous (flow : Bool) (g : Glyph) (rest : List Glyph) : Bool :=
  flow && g.char = ':' && [',', '?', '[', ']', '{', '}'].any (startsWith · rest)

/-- Whether a plain scalar ends behind the gap in front of these glyphs. -/
def endsBehindGap (flow : Bool) (indent : Nat) (g : Glyph) (rest : List Glyph) : Bool :=
  g.char = '#' || (!flow && g.column < indent) || atMark (g :: rest)

/-- A plain scalar behind a gap: its text, whether a line break stands behind it, and what follows.
A tab may not stand in the indentation. -/
def plain (flow : Bool) (indent : Nat) (gap : List Glyph) :
    List Glyph → Option (List Char × Bool × List Glyph)
  | [] => some ([], gap.any (·.isBreak), [])
  | g :: rest =>
    if g.isGap then
      if g.char = '\t' && g.column < indent && gap.any (·.isBreak) then none
      else plain flow indent (gap ++ [g]) rest
    else if !gap.isEmpty && endsBehindGap flow indent g rest then
      some ([], gap.any (·.isBreak), g :: rest)
    else if isAmbiguous flow g rest then none
    else if endsPlain flow g rest then some ([], gap.any (·.isBreak), g :: rest)
    else do
      let (text, broken, rest) ← plain flow indent [] rest
      return (fold false (chars gap) ++ g.char :: text, broken, rest)

/-! ## Quoted scalars -/

inductive Piece where
  | word (c : Char)
  | gap (c : Char)
  | joint
  deriving DecidableEq, Repr

/-- The text of the pieces behind a gap. -/
def joinPieces (escaped : Bool) (gap : List Char) : List Piece → List Char
  | [] => fold escaped gap
  | .word c :: rest => fold escaped gap ++ c :: joinPieces false [] rest
  | .gap c :: rest => joinPieces escaped (gap ++ [c]) rest
  | .joint :: rest => fold escaped gap ++ joinPieces true [] rest

def pieceOf (g : Glyph) : Piece := if g.isGap then .gap g.char else .word g.char

/-- The pieces up to the closing single quote; two quotes stand for one. -/
def single : List Glyph → Option (List Piece × List Glyph)
  | [] => none
  | g :: rest =>
    if atMark (g :: rest) then none
    else if g.char = '\'' then
      match rest with
      | h :: rest =>
        if h.char = '\'' then do
          let (pieces, rest) ← single rest
          return (.word '\'' :: pieces, rest)
        else some ([], h :: rest)
      | [] => some ([], [])
    else do
      let (pieces, rest) ← single rest
      return (pieceOf g :: pieces, rest)

/-- The character that a backslash and this character denote. -/
def unescape : Char → Option Char
  | '0' => some '\x00'
  | 'a' => some '\x07'
  | 'b' => some '\x08'
  | 't' | '\t' => some '\t'
  | 'n' => some '\n'
  | 'v' => some '\x0b'
  | 'f' => some '\x0c'
  | 'r' => some '\r'
  | 'e' => some '\x1b'
  | ' ' => some ' '
  | '"' => some '"'
  | '/' => some '/'
  | '\\' => some '\\'
  | 'N' => some '\u0085'
  | '_' => some '\u00a0'
  | 'L' => some '\u2028'
  | 'P' => some '\u2029'
  | _ => none

/-- How many hexadecimal digits follow a backslash and this character. -/
def digitCount : Char → Option Nat
  | 'x' => some 2
  | 'u' => some 4
  | 'U' => some 8
  | _ => none

def charOf? (n : Nat) : Option Char := if n.isValidChar then some (Char.ofNat n) else none

/-- The pieces up to the closing double quote. The digits of an escaped character are read one by
one: so many are still to come, and those in front of them denote `seen`. -/
def double : (digits seen : Nat) → List Glyph → Option (List Piece × List Glyph)
  | _, _, [] => none
  | digits + 1, seen, g :: rest => do
    let seen := 16 * seen + (← Text.hexValue g.char)
    let c ← if digits = 0 then charOf? seen else some g.char
    let (pieces, rest) ← double digits seen rest
    return (if digits = 0 then .word c :: pieces else pieces, rest)
  | 0, _, g :: rest =>
    if atMark (g :: rest) then none
    else if g.char = '"' then some ([], rest)
    else if g.char = '\\' then
      match rest with
      | [] => none
      | h :: rest =>
        if h.isBreak then do
          let (pieces, rest) ← double 0 0 rest
          return (.joint :: pieces, rest)
        else
          match unescape h.char with
          | some c => do
            let (pieces, rest) ← double 0 0 rest
            return (.word c :: pieces, rest)
          | none => do double (← digitCount h.char) 0 rest
    else do
      let (pieces, rest) ← double 0 0 rest
      return (pieceOf g :: pieces, rest)

/-- The text of a quoted scalar behind its opening quote. -/
def quoted (isDouble : Bool) (gs : List Glyph) : Option (List Char × List Glyph) := do
  let (pieces, rest) ← if isDouble then double 0 0 gs else single gs
  return (joinPieces false [] pieces, rest)

/-! ## Blocks -/

/-- What is kept of the line breaks behind a block. -/
inductive Chomping where
  | strip
  | clip
  | keep
  deriving DecidableEq, Repr

structure Line where
  text : List Char
  /-- The line break behind it; nothing at the end of the document. -/
  ending : List Char
  /-- The line breaks of the empty lines that follow. -/
  empties : List Char
  deriving DecidableEq, Repr

def Line.isIndented (l : Line) : Bool := l.text.head?.any Yaml.isBlank

def pushChar (c : Char) : List Line → List Line
  | [] => [⟨[c], [], []⟩]
  | l :: rest => { l with text := c :: l.text } :: rest

mutual
/-- The lines of a block from within the first on. -/
def lines (indent : Nat) : List Glyph → Option (List Line × List Glyph)
  | [] => some ([⟨[], [], []⟩], [])
  | g :: rest =>
    if g.isBreak then do
      let (empties, ls, rest) ← linesBehind indent rest
      return (⟨[], [g.char], empties⟩ :: ls, rest)
    else do
      let (ls, rest) ← lines indent rest
      return (pushChar g.char ls, rest)

/-- The breaks of empty lines, and the lines behind them. A line with less indentation ends the
block. -/
def linesBehind (indent : Nat) : List Glyph → Option (List Char × List Line × List Glyph)
  | [] => some ([], [], [])
  | g :: rest =>
    if g.isBreak then do
      let (empties, ls, rest) ← linesBehind indent rest
      return (g.char :: empties, ls, rest)
    else if g.column < indent then
      if g.char = ' ' then linesBehind indent rest
      else if g.char = '\t' then none
      else some ([], [], g :: rest)
    else do
      let (ls, rest) ← lines indent rest
      return ([], pushChar g.char ls, rest)
end

/-- The empty lines in front of a block whose indentation is not known yet: their breaks, the
greatest column that was reached, and what follows. -/
def leadingLines (deepest : Nat) : List Glyph → Option (List Char × Nat × List Glyph)
  | [] => some ([], deepest, [])
  | g :: rest =>
    let deepest := max deepest g.column
    if g.isBreak then do
      let (breaks, deepest, rest) ← leadingLines deepest rest
      return (g.char :: breaks, deepest, rest)
    else if g.char = ' ' then leadingLines deepest rest
    else if g.char = '\t' then none
    else some ([], deepest, g :: rest)

/-- The text of lines behind another one. -/
def joinLines (literal : Bool) (chomping : Chomping) (before : Line) : List Line → List Char
  | [] =>
    (if chomping = .strip then [] else before.ending) ++
      if chomping = .keep then before.empties else []
  | l :: rest =>
    let folded := !literal && before.ending == ['\n'] && !before.isIndented && !l.isIndented
    let joint := if !folded then before.ending else if before.empties.isEmpty then [' '] else []
    joint ++ before.empties ++ l.text ++ joinLines literal chomping l rest

def chompingOf? : Char → Option Chomping
  | '+' => some .keep
  | '-' => some .strip
  | _ => none

/-- A digit that says how far a block is indented; zero says nothing. -/
def indentOf? (c : Char) : Option Nat :=
  if c.isDigit && c ≠ '0' then some (c.toNat - '0'.toNat) else none

/-- The signs behind the indicator of a block: at most one digit and one of chomping. -/
def header : List Glyph → Chomping × Option Nat × List Glyph
  | [] => (.clip, none, [])
  | g :: rest =>
    match chompingOf? g.char, indentOf? g.char with
    | some chomping, _ =>
      match rest with
      | h :: more =>
        match indentOf? h.char with
        | some n => (chomping, some n, more)
        | none => (chomping, none, h :: more)
      | [] => (chomping, none, [])
    | none, some n =>
      match rest with
      | h :: more =>
        match chompingOf? h.char with
        | some chomping => (chomping, some n, more)
        | none => (.clip, some n, h :: more)
      | [] => (.clip, some n, [])
    | none, none => (.clip, none, g :: rest)

/-- The text of a block behind its indicator, inside of a block at this column. -/
def block (literal : Bool) (around : Option Nat) (gs : List Glyph) :
    Option (List Char × List Glyph) := do
  let (chomping, indent, rest) := header gs
  let gs ← endOfLine? rest
  match indent with
  | some n =>
    let (empties, ls, rest) ← linesBehind (around.getD 0 + n) gs
    return (joinLines literal chomping ⟨[], [], empties⟩ ls, rest)
  | none =>
    let (empties, deepest, gs) ← leadingLines 0 gs
    let (_, ls, rest) ← linesBehind (max deepest (max 1 ((around.map (· + 1)).getD 0))) gs
    return (joinLines literal chomping ⟨[], [], empties⟩ ls, rest)

end Rollback.Yaml.Scalar
