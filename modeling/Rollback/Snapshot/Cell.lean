import Rollback.Snapshot.Basic

/-!
# Objects made of fields

A cell is an object whose state is a map of typed fields. A strict cell takes its fields out of a
snapshot one by one, each with its type, and keeps a record of the hooks; a plain cell replaces the
whole map and has no hooks.
-/

namespace Rollback

inductive Hook where
  | before
  | restore
  | after
  deriving DecidableEq, Repr

def Hook.name : Hook → String
  | before => "before"
  | restore => "restore"
  | after => "after"

/-- An object whose state is a map of typed fields. -/
structure Cell where
  fields : Fields
  declared : List String
  types : NameMap FieldType
  /-- Whether the fields are taken one by one and the hooks are recorded. -/
  strict : Bool
  /-- Whether the object holds data that cannot be captured. -/
  uncapturable : Bool
  hooks : List Hook

namespace Cell

instance : Inhabited Cell := ⟨⟨∅, [], ∅, false, false, []⟩⟩

/-- A map whose keys are pairs has no form as a field. -/
def pairMap : Datum :=
  .map [(.list [.integer 1, .integer 2], .integer 3)]

def capture (c : Cell) : Outcome Fields :=
  if c.uncapturable then do
    let _ ← pairMap.field
    return c.fields
  else .ok c.fields

def record (c : Cell) (hook : Hook) : Cell :=
  if c.strict then { c with hooks := c.hooks ++ [hook] } else c

/-- The type of a field; any value if none is given. -/
def typeOf (c : Cell) (name : String) : FieldType := c.types[name]?.getD .anything

/-- Takes the named fields in their order and stores them, up to the first that is refused. -/
def takeAll (source : Fields) (c : Cell) : List String → Outcome Unit × Cell
  | [] => (.ok (), c)
  | name :: rest =>
    match source.take name (c.typeOf name) with
    | (.ok v, source) => takeAll source { c with fields := c.fields.insert name v } rest
    | (.error e, _) => (.error e, c)

def overwrite (source : Fields) (c : Cell) : Outcome Unit × Cell :=
  if c.strict then takeAll source (c.record .restore) c.fields.keys
  else (.ok (), { c with fields := source })

instance : Checkpointable Cell where
  declared c := c.declared
  capture := capture
  overwrite := overwrite
  beforeRestore c := c.record .before
  afterRestore c := c.record .after

/-- The fields, and the hooks that ran so far. -/
def json (c : Cell) : Json := .object [
  ("fields", c.fields.json),
  ("hooks", .array (c.hooks.map (.string ·.name)))]

end Cell

end Rollback
