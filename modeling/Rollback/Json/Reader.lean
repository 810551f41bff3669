import Rollback.Json.Printer
import Rollback.Json.Tree

/-!
# Reading documents

A reader turns the tree of a document into data or names the first fault that it meets in the
order of the text. Text that is no JSON is a fault of its own; a tree of another shape than the
one that is wanted is a mismatch, and the faults that are reported with a name are a field that is
missing or repeated and a variant that does not exist.

A reader may meet a document that was read before as a whole, to see which variant it is. Nothing
is hidden in such a document any more, so that a surplus item is a mismatch there, while in a text
it stands where the end of the array should be.
-/

namespace Rollback

inductive Fault where
  | syntaxError
  /-- The tree has another shape than the one that is wanted. -/
  | mismatch
  | missingField (name : String)
  | duplicateField (name : String)
  | unknownVariant (name : String) (known : List String)
  deriving DecidableEq, Repr

namespace Fault

/-- A name as it stands in a fault's text. -/
def ticked (name : String) : String := "\x60" ++ name ++ "\x60"

/-- The variants that are known, in the order of their declaration. -/
def expected : List String → String
  | [] => "there are no variants"
  | [a] => "expected " ++ ticked a
  | [a, b] => "expected " ++ ticked a ++ " or " ++ ticked b
  | known => "expected one of " ++ ", ".intercalate (known.map ticked)

/-- The text of a fault that is reported with a name. -/
def detail? : Fault → Option String
  | syntaxError | mismatch => none
  | missingField name => some ("missing field " ++ ticked name)
  | duplicateField name => some ("duplicate field " ++ ticked name)
  | unknownVariant name known => some ("unknown variant " ++ ticked name ++ ", " ++ expected known)

/-- Whether the text is no JSON, or JSON of a wrong shape. -/
def category : Fault → String
  | syntaxError => "syntax"
  | _ => "data"

def message (f : Fault) : String := f.detail?.getD f.category

end Fault

structure Place where
  /-- How many more levels may be entered. -/
  room : Nat
  /-- Whether the document was read before as a whole. -/
  buffered : Bool := false
  /-- Whether a record may also be an array of its fields. -/
  arrays : Bool := true

def Place.top : Place := { room := 128 }

/-- The place inside of an array or object. -/
def Place.enter (p : Place) : Except Fault Place :=
  if p.room ≤ 1 then .error .syntaxError else .ok { p with room := p.room - 1 }

/-- Reads data of one type from a tree. -/
abbrev Reader (α : Type) := Place → Tree → Except Fault α

variable {α β : Type}

namespace Tree

def unexpected : Tree → Fault
  | overflow | string none | broken => .syntaxError
  | _ => .mismatch

/-- An array or object ends here. -/
def finish (closed : Bool) (a : α) : Except Fault α :=
  if closed then .ok a else .error .syntaxError

/-- A part that nobody asked for has to be there as a whole. -/
def ignore (t : Tree) : Except Fault Unit :=
  if t.isWhole then .ok () else .error .syntaxError

end Tree

namespace Reader

open Rollback.Tree

def map (f : α → β) (read : Reader α) : Reader β := fun place t => (read place t).map f

def text : Reader String
  | _, .string (some s) => .ok s
  | _, .vacant => .ok ""
  | _, t => .error t.unexpected

def parsed (parse : String → Option α) : Reader α := fun place t => do
  match parse (← text place t) with
  | some a => .ok a
  | none => .error .mismatch

def natural : Reader Nat
  | _, .integer n => if 0 ≤ n ∧ n.toNat < UInt64.size then .ok n.toNat else .error .mismatch
  | _, t => .error t.unexpected

def unit : Reader Unit
  | _, .null => .ok ()
  | _, t => .error t.unexpected

def items (read : Reader α) (place : Place) : List Tree → Except Fault (List α)
  | [] => .ok []
  | t :: rest => do
    let a ← read place t
    return a :: (← items read place rest)

def list (read : Reader α) : Reader (List α)
  | place, .array ts closed => do
    let as ← items read (← place.enter) ts
    finish closed as
  | _, .vacant => .ok []
  | _, t => .error t.unexpected

/-- The members in their order; the last of equal names wins. -/
def members (read : Reader α) (place : Place) (seen : NameMap α) :
    List (Option String × Tree) → Except Fault (NameMap α)
  | [] => .ok seen
  | (none, _) :: _ => .error .syntaxError
  | (some name, t) :: rest => do
    let a ← read place t
    members read place (seen.insert name a) rest

def nameMap (read : Reader α) : Reader (NameMap α)
  | place, .object ms closed => do
    let m ← members read (← place.enter) ∅ ms
    finish closed m
  | _, .vacant => .ok ∅
  | _, t => .error t.unexpected

def variantOf (variants : List (String × α)) (name : String) : Except Fault α :=
  match variants.lookup name with
  | some a => .ok a
  | none => .error (.unknownVariant name (variants.map (·.1)))

def variant (variants : List (String × α)) : Reader α := fun place t => do
  variantOf variants (← text place t)

end Reader

/-! ## Values -/

namespace Tree

mutual
def value (place : Place) : Tree → Except Fault Value
  | null => .ok .null
  | bool b => .ok (.bool b)
  | integer n => match Value.integer? n with
    | some v => .ok v
    | none => .error .mismatch
  | double x => .ok (.double x)
  | string (some s) => .ok (.string s)
  | array items closed => do
    let vs ← values (← place.enter) items
    finish closed (.array vs)
  | object members closed => do
    let m ← valueMembers (← place.enter) ∅ members
    finish closed (.object m)
  | vacant => .ok .null
  | string none | overflow | broken => .error .syntaxError

def values (place : Place) : List Tree → Except Fault (List Value)
  | [] => .ok []
  | t :: rest => do
    let v ← value place t
    return v :: (← values place rest)

def valueMembers (place : Place) (seen : NameMap Value) :
    List (Option String × Tree) → Except Fault (NameMap Value)
  | [] => .ok seen
  | (none, _) :: _ => .error .syntaxError
  | (some name, t) :: rest => do
    let v ← value place t
    valueMembers place (seen.insert name v) rest
end

end Tree

def Reader.value : Reader Value := Tree.value

def Reader.run (read : Reader α) (text : String) : Except Fault α := do
  let document := Tree.documentOf text
  let a ← read .top document.tree
  if document.ended then .ok a else .error .syntaxError

/-- The value that a text means. -/
def Value.ofText (text : String) : Except Fault Value := Reader.value.run text

def Value.render (v : Value) (layout : Layout) : String := v.json.render layout

end Rollback
