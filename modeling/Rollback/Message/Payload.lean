import Rollback.Header

/-!
# Messages of instances and their coordinator

What an instance and the coordinator tell each other around a checkpoint or a rollback, and the
tag that an instance adds to its data. How messages travel is not fixed here.
-/

namespace Rollback

/-- The last number that was given to a message for each receiver. -/
abbrev SequenceNumbers := NameMap UInt64

def SequenceNumbers.json (numbers : SequenceNumbers) : Json :=
  .object (numbers.toList.map fun (name, n) => (name, .integer n.toNat))

def Reader.word : Reader UInt64 := Reader.natural.map fun n => n.toUInt64

def Reader.sequenceNumbers : Reader SequenceNumbers := Reader.nameMap Reader.word

/-! ## A checkpoint was taken -/

/-- An instance has taken a checkpoint; with the last number sent to each receiver by then. -/
structure TakenNotice where
  checkpoint : CheckpointId
  origin : String
  sequenceNumbers : SequenceNumbers
  header : Header
  deriving DecidableEq

namespace TakenNotice

def members (m : TakenNotice) : List (String × Json) := [
  ("checkpoint_id", .string m.checkpoint.toString),
  ("origin_instance", .string m.origin),
  ("sequence_numbers", m.sequenceNumbers.json),
  ("metadata", m.header.json)]

inductive Field where
  | checkpoint
  | origin
  | sequenceNumbers
  | header
  deriving DecidableEq

@[reducible] def Field.Content : Field → Type
  | checkpoint => CheckpointId
  | origin => String
  | sequenceNumbers => SequenceNumbers
  | header => Header

def shape : Shape where
  Field := Field
  fields := [.checkpoint, .origin, .sequenceNumbers, .header]
  complete f := by cases f <;> simp
  name
    | .checkpoint => "checkpoint_id"
    | .origin => "origin_instance"
    | .sequenceNumbers => "sequence_numbers"
    | .header => "metadata"
  Content := Field.Content
  read
    | .checkpoint => Reader.checkpointId
    | .origin => Reader.text
    | .sequenceNumbers => Reader.sequenceNumbers
    | .header => Header.reader
  fallback
    | .sequenceNumbers => some ∅
    | .checkpoint | .origin | .header => none

def reader : Reader TakenNotice := shape.reader.map fun r =>
  ⟨r Field.checkpoint, r Field.origin, r Field.sequenceNumbers, r Field.header⟩

end TakenNotice

/-! ## Rollbacks -/

/-- The coordinator asks an instance to restore a checkpoint. -/
structure RestoreRequest where
  checkpoint : CheckpointId
  deriving DecidableEq, Repr

/-- An instance has restored a checkpoint. -/
structure RestoreCompletion where
  name : String
  checkpoint : CheckpointId
  deriving DecidableEq, Repr

/-- The sender's newest checkpoint, on a data message. -/
structure DependencyTag where
  checkpoint : CheckpointId
  deriving DecidableEq, Repr

/-- The record with a checkpoint's id alone. -/
def checkpointReader : Reader CheckpointId := Shape.only "checkpoint_id" Reader.checkpointId

namespace RestoreRequest

def members (m : RestoreRequest) : List (String × Json) := [
  ("checkpoint_id", .string m.checkpoint.toString)]

def reader : Reader RestoreRequest := checkpointReader.map (⟨·⟩)

end RestoreRequest

namespace DependencyTag

def members (m : DependencyTag) : List (String × Json) := [
  ("checkpoint_id", .string m.checkpoint.toString)]

def reader : Reader DependencyTag := checkpointReader.map (⟨·⟩)

end DependencyTag

namespace RestoreCompletion

def members (m : RestoreCompletion) : List (String × Json) := [
  ("instance_name", .string m.name),
  ("checkpoint_id", .string m.checkpoint.toString)]

inductive Field where
  | name
  | checkpoint
  deriving DecidableEq

@[reducible] def Field.Content : Field → Type
  | name => String
  | checkpoint => CheckpointId

def shape : Shape where
  Field := Field
  fields := [.name, .checkpoint]
  complete f := by cases f <;> simp
  name
    | .name => "instance_name"
    | .checkpoint => "checkpoint_id"
  Content := Field.Content
  read
    | .name => Reader.text
    | .checkpoint => Reader.checkpointId

def reader : Reader RestoreCompletion :=
  shape.reader.map fun r => ⟨r Field.name, r Field.checkpoint⟩

end RestoreCompletion

end Rollback
