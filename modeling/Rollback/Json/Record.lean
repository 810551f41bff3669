import Rollback.Json.Reader

/-!
# Records

A record is read from an object, whose members may come in any order, or, where the format has it
so, from an array of its fields in the order of their declaration. A field may have a value to fall
back on. In an object a repeated field is a fault at its second name, members with other names are
passed over, and a field that is missing at the end is a fault; in an array the fields at the end
may be left out if they have something to fall back on.
-/

namespace Rollback

/-- The fields of a record, in the order of their declaration, with what they hold and how that is
read. -/
structure Shape where
  Field : Type
  [decidable : DecidableEq Field]
  fields : List Field
  complete : ∀ f, f ∈ fields
  name : Field → String
  Content : Field → Type
  read : (f : Field) → Reader (Content f)
  fallback : (f : Field) → Option (Content f) := fun _ => none

namespace Shape

variable (shape : Shape)

instance : DecidableEq shape.Field := shape.decidable

/-- Content for each field. -/
abbrev Record := (f : shape.Field) → shape.Content f

/-- Content for the fields that were met. -/
abbrev Partial := (f : shape.Field) → Option (shape.Content f)

variable {shape}

def Partial.empty : shape.Partial := fun _ => none

def Partial.set (p : shape.Partial) (f : shape.Field) (a : shape.Content f) : shape.Partial :=
  fun g => if h : g = f then some (h ▸ a) else p g

/-- What was met, or what there is to fall back on. -/
def Partial.get? (p : shape.Partial) (f : shape.Field) : Option (shape.Content f) :=
  (p f).or (shape.fallback f)

/-- The record, if it lacks nothing; the first field that it lacks otherwise. -/
def Partial.complete (p : shape.Partial) : Except shape.Field shape.Record :=
  match h : shape.fields.find? fun f => (p.get? f).isNone with
  | some f => .error f
  | none => .ok fun f =>
    (p.get? f).get (by
      have := List.find?_eq_none.1 h f (shape.complete f)
      rwa [Bool.not_eq_true, Option.isNone_eq_false_iff] at this)

theorem Partial.set_self (p : shape.Partial) (f : shape.Field) (a : shape.Content f) :
    p.set f a f = some a := by
  simp [Partial.set]

theorem Partial.set_of_ne (p : shape.Partial) {f g : shape.Field} (h : g ≠ f)
    (a : shape.Content f) : p.set f a g = p g := by
  simp [Partial.set, h]

def ofName (shape : Shape) (name : String) : Option shape.Field :=
  shape.fields.find? fun f => shape.name f == name

def readMembers (place : Place) (p : shape.Partial) :
    List (Option String × Tree) → Except Fault shape.Partial
  | [] => .ok p
  | (none, _) :: _ => .error .syntaxError
  | (some name, t) :: rest =>
    match shape.ofName name with
    | none => do
      t.ignore
      readMembers place p rest
    | some f =>
      if (p f).isSome then .error (.duplicateField name)
      else do
        let a ← shape.read f place t
        readMembers place (p.set f a) rest

/-- Reads the items of an array for these fields, and returns the items that are left. -/
def readItems (place : Place) (closed : Bool) (p : shape.Partial) :
    List shape.Field → List Tree → Except Fault (shape.Partial × List Tree)
  | [], ts => .ok (p, ts)
  | f :: fs, t :: ts => do
    let a ← shape.read f place t
    readItems place closed (p.set f a) fs ts
  | f :: fs, [] =>
    if !closed then .error .syntaxError
    else if (shape.fallback f).isNone then .error .mismatch
    else readItems place closed p fs []

/-- A surplus item stands where the end of the array should be. -/
def readEnd (place : Place) (closed : Bool) : List Tree → Except Fault Unit
  | [] => if closed then .ok () else .error .syntaxError
  | _ :: _ => if place.buffered then .error .mismatch else .error .syntaxError

def reader (shape : Shape) : Reader shape.Record
  | place, .object members closed => do
    let p ← readMembers (← place.enter) Partial.empty members
    let p ← Tree.finish closed p
    match p.complete with
    | .ok r => .ok r
    | .error f => .error (.missingField (shape.name f))
  | place, .array items closed =>
    if !place.arrays then .error .mismatch
    else do
      let (p, left) ← readItems (← place.enter) closed Partial.empty shape.fields items
      readEnd place closed left
      match p.complete with
      | .ok r => .ok r
      | .error _ => .error .mismatch
  | _, .vacant =>
    match (Partial.empty : shape.Partial).complete with
    | .ok r => .ok r
    | .error f => .error (.missingField (shape.name f))
  | _, t => .error t.unexpected

def single {α : Type} (name : String) (read : Reader α) : Shape where
  Field := Unit
  decidable := instDecidableEqPUnit
  fields := [()]
  complete _ := .head _
  name _ := name
  Content _ := α
  read _ := read

/-- Reads what the only field of a record holds. -/
def only {α : Type} (name : String) (read : Reader α) : Reader α :=
  (single name read).reader.map fun r => r ()

end Shape

end Rollback
