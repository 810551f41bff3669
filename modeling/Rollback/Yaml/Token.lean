import Rollback.Yaml.Scalar
import Rollback.Yaml.Tag

/-!
# Tokens

The tokens of a document show its blocks and its keys. A block begins where a line reaches further
to the right than the block around it, and ends where one begins further to the left. That a node
is a key shows at the colon behind it only, so every node that could be one is remembered, and the
token for the key goes in front of it once the colon is met. A key ends on its line and within 1024
octets.
-/

namespace Rollback.Yaml

open Glyph

inductive Token where
  | directive (d : Directive)
  | documentStart
  | documentEnd
  | blockSequence
  | blockMapping
  | blockEnd
  | openSequence
  | closeSequence
  | openMapping
  | closeMapping
  | item
  | comma
  | key
  | value
  | anchor (name : String)
  | reference (name : String)
  /-- A tag with the handle that has to be declared. -/
  | tag (handle : Option String)
  | scalar (text : String) (plain : Bool)
  deriving DecidableEq, Repr

/-- A node that may turn out to be a key. -/
structure PossibleKey where
  /-- The number of tokens in front of it. -/
  position : Nat
  glyph : Glyph
  isRequired : Bool

/-- What is known in front of the next token. -/
structure Tokenizer where
  tokens : Array Token
  /-- The columns of the open blocks, innermost first. -/
  columns : List Nat
  /-- The node in the innermost collection that may be a key. -/
  key : Option PossibleKey
  /-- Those in the collections around it; nothing outside of every collection. -/
  outer : List (Option PossibleKey)
  keyAllowed : Bool

namespace Tokenizer

def initial : Tokenizer := ⟨#[], [], none, [], true⟩

variable (t : Tokenizer)

def inFlow : Bool := !t.outer.isEmpty

def push (token : Token) : Tokenizer := { t with tokens := t.tokens.push token }

/-! ## Keys -/

/-- Gives up the possible key; a required one has to have its colon. -/
def dropKey? : Option Tokenizer :=
  if t.key.any (·.isRequired) then none else some { t with key := none }

/-- Remembers the node at this glyph as a possible key. -/
def offerKey? (g : Glyph) : Option Tokenizer := do
  if t.keyAllowed then
    let isRequired := !t.inFlow && t.columns.head? == some g.column
    return { (← t.dropKey?) with key := some ⟨t.tokens.size, g, isRequired⟩ }
  else return t

/-- Whether the key would be too long if its colon were at this glyph. -/
def isStale (g : Glyph) (k : PossibleKey) : Bool :=
  k.glyph.line < g.line || k.glyph.index + 1024 < g.index

/-- Gives up a key that is stale. -/
def expireKey? (g : Glyph) : Option PossibleKey → Option (Option PossibleKey)
  | none => some none
  | some k => if !isStale g k then some (some k) else if k.isRequired then none else some none

def expire? (g : Glyph) : Option Tokenizer := do
  return { t with key := ← expireKey? g t.key, outer := ← t.outer.mapM (expireKey? g) }

/-! ## Blocks -/

/-- Opens a block at a column, if it reaches further than the one around it; its token goes to the
position. -/
def openBlock (column position : Nat) (token : Token) : Tokenizer :=
  if t.inFlow || t.columns.head?.any (column ≤ ·) then t
  else { t with
    tokens := t.tokens.insertIdxIfInBounds position token
    columns := column :: t.columns }

/-- Closes the blocks that reach further than a column; without a column all of them. -/
def closeBlocks (column : Option Nat) : Tokenizer :=
  if t.inFlow then t
  else
    let reach (c : Nat) : Bool := column.all (· < c)
    { t with
      tokens := t.tokens ++ Array.replicate (t.columns.takeWhile reach).length .blockEnd
      columns := t.columns.dropWhile reach }

/-! ## Tokens -/

/-- Leaves what stands in front of a token, and says whether a key may begin there. A line break
outside of a collection allows keys, and where keys are allowed a tab is no blank. -/
def skipSpace (flow : Bool) : (keyAllowed inComment : Bool) → List Glyph → Bool × List Glyph
  | keyAllowed, _, [] => (keyAllowed, [])
  | keyAllowed, inComment, g :: rest =>
    if g.isBreak then skipSpace flow (keyAllowed || !flow) false rest
    else if inComment || g.char = '#' then skipSpace flow keyAllowed true rest
    else if g.char = ' ' || (g.char = '\t' && (flow || !keyAllowed)) ||
        (g.char = '\uFEFF' && g.column = 0) then
      skipSpace flow keyAllowed false rest
    else (keyAllowed, g :: rest)

/-- Leaves every block, where no key may begin until the line ends. -/
def leaveBlocks? : Option Tokenizer := do
  return { (← (t.closeBlocks none).dropKey?) with keyAllowed := false }

def openFlow? (g : Glyph) (token : Token) : Option Tokenizer := do
  let t ← t.offerKey? g
  return { t.push token with key := none, outer := t.key :: t.outer, keyAllowed := true }

def closeFlow? (token : Token) : Option Tokenizer := do
  let t ← t.dropKey?
  return { t.push token with
    key := t.outer.head?.getD none
    outer := t.outer.tail
    keyAllowed := false }

def comma? : Option Tokenizer := do
  return { (← t.dropKey?).push .comma with keyAllowed := true }

/-- Opens a block at this glyph, where a key could begin too. -/
def openBlockHere? (g : Glyph) (token : Token) : Option Tokenizer :=
  if t.inFlow then some t
  else if t.keyAllowed then some (t.openBlock g.column t.tokens.size token)
  else none

def item? (g : Glyph) : Option Tokenizer := do
  let t ← (← t.openBlockHere? g .blockSequence).dropKey?
  return { t.push .item with keyAllowed := true }

def key? (g : Glyph) : Option Tokenizer := do
  let t ← (← t.openBlockHere? g .blockMapping).dropKey?
  return { t.push .key with keyAllowed := !t.inFlow }

def value? (g : Glyph) : Option Tokenizer := do
  match t.key with
  | some k =>
    let t := { t with tokens := t.tokens.insertIdxIfInBounds k.position .key }
    let t := t.openBlock k.glyph.column k.position .blockMapping
    return { t.push .value with key := none, keyAllowed := false }
  | none =>
    let t ← t.openBlockHere? g .blockMapping
    return { t.push .value with keyAllowed := !t.inFlow }

/-- A name behind `&` or `*`. -/
def name? (gs : List Glyph) : Option (String × List Glyph) :=
  let (name, rest) := nameRun gs
  if name.isEmpty then none
  else if atGap rest || ['?', ':', ',', ']', '}', '%', '@', '\x60'].any (startsWith · rest) then
    some (String.ofList name, rest)
  else none

/-- Goes on behind a token that may be a key's first. -/
def node? (g : Glyph) (scanned : Option (Token × List Glyph)) :
    Option (Tokenizer × List Glyph) := do
  let (token, rest) ← scanned
  return ({ (← t.offerKey? g).push token with keyAllowed := false }, rest)

def plainColumn : Nat := (t.columns.head?.map (· + 1)).getD 0

/-- A plain scalar; a key may follow in the next line. -/
def plain? (g : Glyph) (rest : List Glyph) : Option (Tokenizer × List Glyph) := do
  let (text, broken, rest) ← Scalar.plain t.inFlow t.plainColumn [] (g :: rest)
  let t ← t.offerKey? g
  return ({ t.push (.scalar (String.ofList text) true) with keyAllowed := broken }, rest)

def block? (literal : Bool) (rest : List Glyph) : Option (Tokenizer × List Glyph) := do
  let (text, rest) ← Scalar.block literal t.columns.head? rest
  let t := (← t.dropKey?).push (.scalar (String.ofList text) false)
  return ({ t with keyAllowed := true }, rest)

/-- The characters that begin something else than a plain scalar. -/
def indicators : List Char := "-?:,[]{}#&*!|>'\"%@\x60".toList

def startsPlain (flow : Bool) (g : Glyph) (rest : List Glyph) : Bool :=
  (!g.isGap && g.char ∉ indicators) ||
    (g.char = '-' && !rest.head?.any (·.isBlank)) ||
    (!flow && (g.char = '?' || g.char = ':') && !atGap rest)

def token? (g : Glyph) (rest : List Glyph) : Option (Tokenizer × List Glyph) := do
  if g.column = 0 && g.char = '%' then
    let (directive, rest) ← Directive.scan? rest
    return ((← t.leaveBlocks?).push (.directive directive), rest)
  else if atMark (g :: rest) then
    let token := if g.char = '-' then Token.documentStart else .documentEnd
    return ((← t.leaveBlocks?).push token, rest.drop 2)
  else
    match g.char with
    | '[' => return (← t.openFlow? g .openSequence, rest)
    | '{' => return (← t.openFlow? g .openMapping, rest)
    | ']' => return (← t.closeFlow? .closeSequence, rest)
    | '}' => return (← t.closeFlow? .closeMapping, rest)
    | ',' => return (← t.comma?, rest)
    | '*' => t.node? g ((name? rest).map fun (name, rest) => (.reference name, rest))
    | '&' => t.node? g ((name? rest).map fun (name, rest) => (.anchor name, rest))
    | '!' => t.node? g ((tag? t.inFlow rest).map fun (handle, rest) => (.tag handle, rest))
    | '\'' => t.node? g ((Scalar.quoted false rest).map fun (text, rest) =>
        (.scalar (String.ofList text) false, rest))
    | '"' => t.node? g ((Scalar.quoted true rest).map fun (text, rest) =>
        (.scalar (String.ofList text) false, rest))
    | c =>
      if c = '-' && atGap rest then return (← t.item? g, rest)
      else if c = '?' && (t.inFlow || atGap rest) then return (← t.key? g, rest)
      else if c = ':' && (t.inFlow || atGap rest) then return (← t.value? g, rest)
      else if c = '|' && !t.inFlow then t.block? true rest
      else if c = '>' && !t.inFlow then t.block? false rest
      else if startsPlain t.inFlow g rest then t.plain? g rest
      else none

/-- The tokens up to the end. Each token takes a character at least, which bounds the steps. -/
def run : (steps : Nat) → Tokenizer → List Glyph → Option (Array Token)
  | 0, _, _ => none
  | steps + 1, t, gs =>
    let (keyAllowed, gs) := skipSpace t.inFlow t.keyAllowed false gs
    let t := { t with keyAllowed }
    match gs with
    | [] => return (← t.leaveBlocks?).tokens
    | g :: rest => do
      let t ← t.expire? g
      let (t, rest) ← (t.closeBlocks (some g.column)).token? g rest
      run steps t rest

end Tokenizer

def Token.ofText? (text : String) : Option (Array Token) := do
  let gs ← Glyph.ofText? text
  Tokenizer.run (gs.length + 1) .initial gs

end Rollback.Yaml
