import Rollback.Recovery.Search
import Rollback.Scenario.Basic

/-!
# What scenarios tell

A scenario is valid if its headers make a chronicle in which every instance has a checkpoint. Its
recovery line is the one for the failed instances. Its worst line is the one for the failure of
every instance: nothing that is older is ever restored.
-/

namespace Rollback

namespace Scenario

/-- Why a scenario does not have an answer. -/
inductive Failure where
  | invalid (cause : Error)
  | withoutCheckpoint (names : List String)
  | failedWithoutCheckpoint (name : String)
  | noLine (cause : Error)
  | noWorstLine (cause : Error)
  deriving DecidableEq, Repr

namespace Failure

def cause? : Failure → Option Error
  | invalid cause | noLine cause | noWorstLine cause => some cause
  | withoutCheckpoint _ | failedWithoutCheckpoint _ => none

def message : Failure → String
  | invalid _ => "Invalid checkpoint metadata"
  | withoutCheckpoint names => "Instances without any checkpoint: " ++ ", ".intercalate names
  | failedWithoutCheckpoint name => "Failed instance " ++ name ++ " has no checkpoint"
  | noLine _ => "Recovery line calculation failed"
  | noWorstLine _ => "Worst-case recovery line calculation failed"

/-- The messages from the failure down to what caused it. -/
def chain (f : Failure) : List String := f.message :: (f.cause?.map Error.message).toList

end Failure

variable (s : Scenario)

def chronicle : Except Failure Chronicle :=
  (Chronicle.ofHeaders s.checkpoints s.graph).mapError .invalid

/-- What is shown of an instance. -/
structure Summary where
  name : String
  checkpoints : Nat
  latest : CheckpointId
  sources : List String
  deriving DecidableEq

def Summary.json (y : Summary) : Json := .object [
  ("instance", .string y.name),
  ("checkpoints", .integer y.checkpoints),
  ("latest", .string y.latest.toString),
  ("upstream", .array (y.sources.map .string))]

def summary? (c : Chronicle) (name : String) : Option Summary :=
  (c.latest name).map fun top =>
    ⟨name, (c.history name).length, top.id, (s.graph.sources name).toList⟩

/-- Checks that every instance and every failed one has a checkpoint, and sums the instances up. -/
def validate : Except Failure (List Summary) := do
  let c ← s.chronicle
  match c.names.filter fun name => (c.latest name).isNone with
  | name :: more => .error (.withoutCheckpoint (name :: more))
  | [] =>
    match s.failed.find? fun name => (c.latest name).isNone with
    | some name => .error (.failedWithoutCheckpoint name)
    | none => return c.names.filterMap (s.summary? c)

/-- The recovery line for the given instances, or for those of the scenario if none is given. -/
def compute (failed : List String) (reuse : Bool) : Except Failure Line := do
  let c ← s.chronicle
  (c.recover (if failed.isEmpty then s.failed else failed) reuse).mapError .noLine

/-- The worst line, and the checkpoints that are older than what it selects. -/
def prunable : Except Failure (Line × List Header) := do
  let c ← s.chronicle
  let line ← (c.recover c.names false).mapError .noWorstLine
  return (line, c.superseded line)

end Scenario

end Rollback
