import Rollback.Message.Payload
import Rollback.Recovery.Line

/-!
# Pruning of message logs

Once a line is fixed, nobody replays messages that a selected checkpoint has sent already. Each
checkpoint on the line asks every receiver of its messages to drop them up to the number that the
checkpoint recorded.
-/

namespace Rollback

/-! ## Messages -/

/-- The messages to the named receiver up to this number are no longer needed. -/
structure PruneRequest where
  receiver : String
  upTo : UInt64
  deriving DecidableEq, Repr

namespace PruneRequest

def members (m : PruneRequest) : List (String × Json) := [
  ("instance_name", .string m.receiver),
  ("sequence_number", .integer m.upTo.toNat)]

inductive Field where
  | receiver
  | upTo
  deriving DecidableEq

@[reducible] def Field.Content : Field → Type
  | receiver => String
  | upTo => UInt64

def shape : Shape where
  Field := Field
  fields := [.receiver, .upTo]
  complete f := by cases f <;> simp
  name
    | .receiver => "instance_name"
    | .upTo => "sequence_number"
  Content := Field.Content
  read
    | .receiver => Reader.text
    | .upTo => Reader.word

def reader : Reader PruneRequest := shape.reader.map fun r => ⟨r Field.receiver, r Field.upTo⟩

end PruneRequest

/-- A prune request and the instance that has to act on it. -/
structure AddressedPrune where
  target : String
  request : PruneRequest
  deriving DecidableEq, Repr

namespace AddressedPrune

def members (m : AddressedPrune) : List (String × Json) := [
  ("target", .string m.target),
  ("request", .object m.request.members)]

inductive Field where
  | target
  | request
  deriving DecidableEq

@[reducible] def Field.Content : Field → Type
  | target => String
  | request => PruneRequest

def shape : Shape where
  Field := Field
  fields := [.target, .request]
  complete f := by cases f <;> simp
  name
    | .target => "target"
    | .request => "request"
  Content := Field.Content
  read
    | .target => Reader.text
    | .request => PruneRequest.reader

def reader : Reader AddressedPrune := shape.reader.map fun r => ⟨r Field.target, r Field.request⟩

end AddressedPrune

/-! ## What a line asks for -/

/-- The numbers that each checkpoint recorded when it was taken. -/
abbrev RecordedNumbers := Std.ExtTreeMap CheckpointId SequenceNumbers

/-- The requests for a line, by instance and then by receiver. -/
def Line.pruneRequests (line : Line) (recorded : RecordedNumbers) : List AddressedPrune :=
  line.selections.toList.flatMap fun (name, id) =>
    (recorded[id]?.getD ∅).toList.map fun (target, upTo) => ⟨target, name, upTo⟩

end Rollback
