import Rollback.Error
import Rollback.Instant
import Rollback.Json.Record

/-!
# Checkpoint headers

What recovery needs to know of a checkpoint: its id, the instance that owns it, when it was
created, and the checkpoints that it depends on. For each peer that is the newest checkpoint of
the peer whose later messages the owner had consumed. Under its own name the owner records the
checkpoint before, which is nil for its first one.
-/

namespace Rollback

/-- Checkpoints that are depended on, by the instance that owns them. -/
abbrev Dependencies := NameMap CheckpointId

/-- Identity and dependencies of one checkpoint. -/
structure Header where
  id : CheckpointId
  owner : String
  createdAt : Instant
  dependencies : Dependencies
  deriving DecidableEq

namespace Header

/-- Checks what a document may violate: a name, a creation time and a dependency on itself. -/
def validate (h : Header) : Outcome Unit :=
  if h.owner.isEmpty then .error (.unnamedOwner h.id)
  else if h.createdAt = .epoch then .error (.unsetTime h.id)
  else if h.owner ∈ h.dependencies then .ok ()
  else .error (.noSelfDependency h.id h.owner)

/-- The header of a new checkpoint: the one before takes the place of anything that is recorded
under the owner's own name. -/
def new (id : CheckpointId) (owner : String) (createdAt : Instant) (previous : CheckpointId)
    (peers : Dependencies) : Outcome Header := do
  let h : Header := ⟨id, owner, createdAt, peers.insert owner previous⟩
  h.validate
  return h

/-- The owner's checkpoint before this one. -/
def previous (h : Header) : CheckpointId := h.dependencies[h.owner]?.getD .nil

def peers (h : Header) : Dependencies := h.dependencies.erase h.owner

/-- Histories are ordered by creation time, and by id at the same time. -/
def age : Header → Header → Ordering :=
  compareLex (compareOn createdAt) (compareOn id)

def isOlder (a b : Header) : Bool := age a b = .lt

/-! ## As a document -/

def dependenciesJson (d : Dependencies) : Json :=
  .object (d.toList.map fun (name, id) => (name, .string id.toString))

def json (h : Header) : Json := .object [
  ("id", .string h.id.toString),
  ("instance_name", .string h.owner),
  ("created_at", .string h.createdAt.toString),
  ("dependencies", dependenciesJson h.dependencies)]

inductive Field where
  | id
  | owner
  | createdAt
  | dependencies
  deriving DecidableEq

@[reducible] def Field.Content : Field → Type
  | id => CheckpointId
  | owner => String
  | createdAt => Instant
  | dependencies => Dependencies

end Header

def Reader.checkpointId : Reader CheckpointId := Reader.parsed CheckpointId.ofString?

def Reader.instant : Reader Instant := Reader.parsed Instant.ofString?

namespace Header

def shape : Shape where
  Field := Field
  fields := [.id, .owner, .createdAt, .dependencies]
  complete f := by cases f <;> simp
  name
    | .id => "id"
    | .owner => "instance_name"
    | .createdAt => "created_at"
    | .dependencies => "dependencies"
  Content := Field.Content
  read
    | .id => Reader.checkpointId
    | .owner => Reader.text
    | .createdAt => Reader.instant
    | .dependencies => Reader.nameMap Reader.checkpointId

def reader : Reader Header :=
  shape.reader.map fun r => ⟨r Field.id, r Field.owner, r Field.createdAt, r Field.dependencies⟩

end Header

end Rollback
