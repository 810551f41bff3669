import Rollback.Json.Record
import Rollback.Snapshot.Field
import Std.Data.ExtTreeSet

/-!
# Snapshots of objects

An object that can be checkpointed declares the names of the fields that have to survive a
rollback, captures their values and overwrites them again. A snapshot is taken only if the
captured names are the declared ones. Hooks run around the overwriting; all state that no field
covers is left alone.
-/

namespace Rollback

/-- State that can be captured in fields and overwritten by them. -/
class Checkpointable (σ : Type) where
  /-- The names of the fields, in any order and with any repetitions. -/
  declared : σ → List String
  capture : σ → Outcome Fields
  /-- A failure may leave some of the fields overwritten. -/
  overwrite : Fields → σ → Outcome Unit × σ
  beforeRestore : σ → σ := id
  afterRestore : σ → σ := id

structure Snapshot where
  fields : Fields

namespace Snapshot

variable {σ : Type} [Checkpointable σ]

/-- The declared names in ascending order without repetitions. -/
def declaredNames (object : σ) : List String :=
  (Std.ExtTreeSet.ofList (Checkpointable.declared object)).toList

def take (key : String) (object : σ) : Outcome Snapshot := do
  let fields ← Checkpointable.capture object
  let declared := declaredNames object
  if declared = fields.keys then return ⟨fields⟩
  else .error (.fieldMismatch key declared fields.keys)

/-- Overwrites the fields of an object, with its hooks around. After a failure the second hook
does not run. -/
def restoreInto (snapshot : Snapshot) (object : σ) : Outcome Unit × σ :=
  match Checkpointable.overwrite snapshot.fields (Checkpointable.beforeRestore object) with
  | (.ok (), object) => (.ok (), Checkpointable.afterRestore object)
  | (.error e, object) => (.error e, object)

def get? (snapshot : Snapshot) (name : String) : Option Value := snapshot.fields[name]?

def agrees (a b : Snapshot) : Bool := (Value.object a.fields).agrees (.object b.fields)

def json (snapshot : Snapshot) : Json := .object [("fields", snapshot.fields.json)]

def reader : Reader Snapshot := (Shape.only "fields" Reader.fields).map (⟨·⟩)

end Snapshot

end Rollback
