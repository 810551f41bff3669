import Rollback.Header
import Rollback.Snapshot.Basic

/-!
# Checkpoints

A checkpoint is a header with the snapshots of all objects that were registered when it was taken,
by the keys under which they were registered.
-/

namespace Rollback

/-- A header and the snapshots of the objects. -/
structure Checkpoint where
  header : Header
  snapshots : NameMap Snapshot

namespace Checkpoint

def id (c : Checkpoint) : CheckpointId := c.header.id

def snapshot? (c : Checkpoint) (key : String) : Option Snapshot := c.snapshots[key]?

def contains (c : Checkpoint) (key : String) : Bool := c.snapshots.contains key

def json (c : Checkpoint) : Json := .object [
  ("metadata", c.header.json),
  ("snapshots", .object (c.snapshots.toList.map fun (key, s) => (key, s.json)))]

inductive Field where
  | header
  | snapshots
  deriving DecidableEq

@[reducible] def Field.Content : Field → Type
  | header => Header
  | snapshots => NameMap Snapshot

def shape : Shape where
  Field := Field
  fields := [.header, .snapshots]
  complete f := by cases f <;> simp
  name
    | .header => "metadata"
    | .snapshots => "snapshots"
  Content := Field.Content
  read
    | .header => Header.reader
    | .snapshots => Reader.nameMap Snapshot.reader

def reader : Reader Checkpoint := shape.reader.map fun r => ⟨r Field.header, r Field.snapshots⟩

/-- Reads the header of a checkpoint and passes over the snapshots. -/
def headerReader : Reader Header := Shape.only "metadata" Header.reader

end Checkpoint

end Rollback
