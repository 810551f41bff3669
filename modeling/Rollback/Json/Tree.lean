import Rollback.Json.Basic
import Rollback.Text.Numeral

/-!
# Documents as they stand in a text

A tree keeps what a reader of records has to see and a value forgets: the members of an object in
the order of the text with their repetitions, and the place where a text stops being a document.
From that place on nothing is known, so an array or object that holds it is not closed. Parts that
only an exact reading refuses, such as a number that is too large, have a mark of their own,
because a reader may pass over them.
-/

namespace Rollback

/-- A document as it stands in a text. -/
inductive Tree where
  | null
  | bool (b : Bool)
  | integer (n : Int)
  | double (x : Double)
  /-- A number that is too large for any format. -/
  | overflow
  /-- A string; nothing if its escapes denote no text. -/
  | string (s : Option String)
  /-- A place that was left empty: it reads as an empty text or an empty container. -/
  | vacant
  | array (items : List Tree) (closed : Bool)
  | object (members : List (Option String × Tree)) (closed : Bool)
  /-- The place where the text stops being a document. -/
  | broken

namespace Tree

instance : Inhabited Tree := ⟨broken⟩

mutual
def ofJson : Json → Tree
  | .null => null
  | .bool b => bool b
  | .integer n => integer n
  | .double x => double x
  | .string s => string (some s)
  | .array items => array (ofItems items) true
  | .object members => object (ofMembers members) true

def ofItems : List Json → List Tree
  | [] => []
  | j :: rest => ofJson j :: ofItems rest

def ofMembers : List (String × Json) → List (Option String × Tree)
  | [] => []
  | (k, j) :: rest => (some k, ofJson j) :: ofMembers rest
end

/-! ## Strings -/

def unescape (c : Char) : Option Char :=
  if c = '"' ∨ c = '\\' ∨ c = '/' then some c
  else if c = 'b' then some '\x08'
  else if c = 'f' then some '\x0c'
  else if c = 'n' then some '\n'
  else if c = 'r' then some '\r'
  else if c = 't' then some '\t'
  else none

/-- The code points and code units of a string behind its opening quote, and what stands behind
the closing one. -/
def codes : List Char → Option (List Nat × List Char)
  | [] => none
  | '"' :: rest => some ([], rest)
  | '\\' :: 'u' :: a :: b :: c :: d :: rest =>
    match Text.ofHexDigits 0 [a, b, c, d] with
    | some n => (codes rest).map fun (ns, rest) => (n :: ns, rest)
    | none => none
  | '\\' :: c :: rest =>
    match unescape c with
    | some e => (codes rest).map fun (ns, rest) => (e.toNat :: ns, rest)
    | none => none
  | c :: rest =>
    if c.toNat < 0x20 ∨ c = '\\' then none
    else (codes rest).map fun (ns, rest) => (c.toNat :: ns, rest)

def isHighSurrogate (n : Nat) : Bool := 0xd800 ≤ n && n < 0xdc00

def isLowSurrogate (n : Nat) : Bool := 0xdc00 ≤ n && n < 0xe000

/-- The text of code points and units: a high and a low surrogate make one character, and a
surrogate that stands alone makes none. -/
def textOfCodes : List Nat → Option (List Char)
  | [] => some []
  | n :: rest =>
    if isHighSurrogate n then
      match rest with
      | m :: rest =>
        if isLowSurrogate m then
          (textOfCodes rest).map
            (Char.ofNat (0x10000 + (n - 0xd800) * 0x400 + (m - 0xdc00)) :: ·)
        else none
      | [] => none
    else if isLowSurrogate n then none
    else (textOfCodes rest).map (Char.ofNat n :: ·)

def scanString (cs : List Char) : Option (Option String × List Char) :=
  (codes cs).map fun (ns, rest) => ((textOfCodes ns).map String.ofList, rest)

/-! ## Numbers -/

structure Literal where
  negative : Bool
  whole : List Char
  fraction : List Char
  power : Option Int

/-- Takes digits up to the first that would leave 64 bits. -/
def absorb (n : Nat) : List Char → Nat × List Char
  | [] => (n, [])
  | c :: cs =>
    let next := 10 * n + (c.toNat - '0'.toNat)
    if next < UInt64.size then absorb next cs else (n, c :: cs)

/-- A whole number that fits is exact. Any other number keeps the leading digits that fit 64 bits
and a power of ten. -/
def Literal.tree (l : Literal) : Tree :=
  let n := Text.ofDecimal l.whole
  if l.fraction.isEmpty && l.power.isNone && !l.negative && n < UInt64.size then integer n
  else if l.fraction.isEmpty && l.power.isNone && l.negative && 0 < n && 2 * n ≤ UInt64.size then
    integer (-(n : Int))
  else
    let (n, left) := absorb 0 l.whole
    let (n, dropped) := absorb n l.fraction
    let power := (left.length : Int) - (l.fraction.length - dropped.length : Nat) + l.power.getD 0
    match Double.ofLiteral l.negative n.toUInt64 power with
    | some x => double x
    | none => overflow

/-- The part behind a point: at least one digit. -/
def scanFraction : List Char → Option (List Char × List Char)
  | '.' :: cs =>
    let (digits, rest) := Text.digitRun cs
    if digits.isEmpty then none else some (digits, rest)
  | cs => some ([], cs)

/-- The power of ten behind an `e`: at least one digit, with or without a sign. -/
def scanPower (cs : List Char) : Option (Option Int × List Char) :=
  let digits (sign : Int) (cs : List Char) :=
    let (digits, rest) := Text.digitRun cs
    if digits.isEmpty then none else some (some (sign * Text.ofDecimal digits), rest)
  let behind (cs : List Char) :=
    match cs with
    | '+' :: cs => digits 1 cs
    | '-' :: cs => digits (-1) cs
    | cs => digits 1 cs
  match cs with
  | 'e' :: cs => behind cs
  | 'E' :: cs => behind cs
  | cs => some (none, cs)

/-- A number; its whole part has no zero in front of another digit. -/
def scanNumber (cs : List Char) : Option (Literal × List Char) := do
  let (negative, cs) := match cs with
    | '-' :: cs => (true, cs)
    | cs => (false, cs)
  let (whole, cs) := Text.digitRun cs
  if whole.isEmpty ∨ (1 < whole.length ∧ whole.head? = some '0') then none
  else
    let (fraction, cs) ← scanFraction cs
    let (power, cs) ← scanPower cs
    return (⟨negative, whole, fraction, power⟩, cs)

/-! ## Documents -/

/-- The four characters that may stand between the parts of a document. -/
def isSpace (c : Char) : Bool := c = ' ' || c = '\n' || c = '\t' || c = '\r'

def skipSpace (cs : List Char) : List Char := cs.dropWhile isSpace

def behind? : (word : List Char) → List Char → Option (List Char)
  | [], cs => some cs
  | w :: ws, c :: cs => if w = c then behind? ws cs else none
  | _ :: _, [] => none

def scanWord (word : String) (t : Tree) (cs : List Char) : Tree × List Char :=
  match behind? word.toList cs with
  | some rest => (t, rest)
  | none => (broken, [])

mutual
/-- The document at the front of a text, and what stands behind it. The steps that are left bound
the work. -/
def scan : (steps : Nat) → List Char → Tree × List Char
  | 0, _ => (broken, [])
  | steps + 1, cs =>
    match skipSpace cs with
    | [] => (broken, [])
    | '"' :: rest =>
      match scanString rest with
      | some (s, rest) => (string s, rest)
      | none => (broken, [])
    | '[' :: rest =>
      match skipSpace rest with
      | ']' :: rest => (array [] true, rest)
      | rest =>
        let (items, closed, rest) := scanItems steps rest
        (array items closed, rest)
    | '{' :: rest =>
      match skipSpace rest with
      | '}' :: rest => (object [] true, rest)
      | rest =>
        let (members, closed, rest) := scanMembers steps rest
        (object members closed, rest)
    | c :: rest =>
      if c = 'n' then scanWord "null" null (c :: rest)
      else if c = 't' then scanWord "true" (bool true) (c :: rest)
      else if c = 'f' then scanWord "false" (bool false) (c :: rest)
      else
        match scanNumber (c :: rest) with
        | some (l, rest) => (l.tree, rest)
        | none => (broken, [])

/-- The items of an array up to its bracket, at least one. -/
def scanItems : (steps : Nat) → List Char → List Tree × Bool × List Char
  | 0, _ => ([], false, [])
  | steps + 1, cs =>
    let (item, rest) := scan steps cs
    match skipSpace rest with
    | ',' :: rest =>
      let (items, closed, rest) := scanItems steps rest
      (item :: items, closed, rest)
    | ']' :: rest => ([item], true, rest)
    | _ => ([item], false, [])

/-- The members of an object up to its brace, at least one. -/
def scanMembers : (steps : Nat) → List Char → List (Option String × Tree) × Bool × List Char
  | 0, _ => ([], false, [])
  | steps + 1, cs =>
    match skipSpace cs with
    | '"' :: rest =>
      match scanString rest with
      | none => ([], false, [])
      | some (name, rest) =>
        match skipSpace rest with
        | ':' :: rest =>
          let (item, rest) := scan steps rest
          match skipSpace rest with
          | ',' :: rest =>
            let (members, closed, rest) := scanMembers steps rest
            ((name, item) :: members, closed, rest)
          | '}' :: rest => ([(name, item)], true, rest)
          | _ => ([(name, item)], false, [])
        | _ => ([(name, broken)], false, [])
    | _ => ([], false, [])
end

/-- A text as a document: its tree, and whether nothing stands behind it. -/
structure Document where
  tree : Tree
  ended : Bool

/-- Each bracket or comma takes two steps at most. -/
def documentOfChars (cs : List Char) : Document :=
  let (tree, rest) := scan (2 * cs.length + 2) cs
  ⟨tree, (skipSpace rest).isEmpty⟩

def documentOf (text : String) : Document := documentOfChars text.toList

mutual
/-- Whether the tree can be passed over: all of it is there. -/
def isWhole : Tree → Bool
  | broken => false
  | array items closed => areWhole items && closed
  | object members closed => haveWhole members && closed
  | _ => true

def areWhole : List Tree → Bool
  | [] => true
  | t :: rest => isWhole t && areWhole rest

def haveWhole : List (Option String × Tree) → Bool
  | [] => true
  | (_, t) :: rest => isWhole t && haveWhole rest
end

end Tree

end Rollback
