import Rollback.Graph
import Rollback.Header
import Rollback.Yaml.Document

/-!
# Scenarios

A scenario gathers what a deployment left behind: the graph, the headers of all checkpoints and the
instances that failed. It is written as JSON or YAML; only the graph has to be there.
-/

namespace Rollback

/-- Graph, headers and failed instances of a deployment. -/
structure Scenario where
  graph : Graph
  checkpoints : List Header
  failed : List String
  deriving DecidableEq

namespace Scenario

def json (s : Scenario) : Json := .object [
  ("graph", s.graph.json),
  ("checkpoints", .array (s.checkpoints.map Header.json)),
  ("failed", .array (s.failed.map .string))]

inductive Field where
  | graph
  | checkpoints
  | failed
  deriving DecidableEq

@[reducible] def Field.Content : Field → Type
  | graph => Graph
  | checkpoints => List Header
  | failed => List String

def shape : Shape where
  Field := Field
  fields := [.graph, .checkpoints, .failed]
  complete f := by cases f <;> simp
  name
    | .graph => "graph"
    | .checkpoints => "checkpoints"
    | .failed => "failed"
  Content := Field.Content
  read
    | .graph => Graph.reader
    | .checkpoints => Reader.list Header.reader
    | .failed => Reader.list Reader.text
  fallback
    | .graph => none
    | .checkpoints => some []
    | .failed => some []

def reader : Reader Scenario :=
  shape.reader.map fun r => ⟨r Field.graph, r Field.checkpoints, r Field.failed⟩

/-! ## Texts -/

open Yaml in
/-- The parts of a scenario that are read. -/
def outline : Outline :=
  let edge : Outline := .ofShape Edge.shape fun _ => .text
  let graph : Outline := .ofShape Graph.shape fun
    | Graph.Field.instances => .list .text
    | Graph.Field.edges => .list edge
  let header : Outline := .ofShape Header.shape fun
    | Header.Field.dependencies => .map .text
    | _ => .text
  .ofShape shape fun
    | Field.graph => graph
    | Field.checkpoints => .list header
    | Field.failed => .list .text

inductive Format where
  | json
  | yaml
  deriving DecidableEq, Repr

/-- Why a text is no scenario. -/
inductive Unreadable where
  | json (cause : Fault)
  | yaml
  deriving DecidableEq, Repr

def Unreadable.message : Unreadable → String
  | json cause => cause.message
  | yaml => "not the YAML of a scenario"

/-- The scenario that a text of the given format describes. -/
def ofText (format : Format) (text : String) : Except Unreadable Scenario :=
  match format with
  | .json => (reader.run text).mapError .json
  | .yaml =>
    match reader.runYaml? outline text with
    | some s => .ok s
    | none => .error .yaml

/-! ## Files -/

/-- The last part of a path, if it names something. -/
def fileName? (path : String) : Option (List Char) :=
  let parts := (path.splitOn "/").filter fun part => part ≠ "" && part ≠ "."
  (parts.getLast?.filter (· ≠ "..")).map String.toList

/-- What stands behind the last point of a file's name, if something stands in front of it. -/
def extension? (path : String) : Option (List Char) := do
  let reversed := (← fileName? path).reverse
  let extension := reversed.takeWhile (· ≠ '.')
  if reversed.length ≤ extension.length + 1 then none else some extension.reverse

/-- A file is read as JSON if it has the extension for it, in any case, and as YAML otherwise. -/
def Format.ofPath (path : String) : Format :=
  if (extension? path).map (·.map Char.toLower) = some "json".toList then .json else .yaml

end Scenario

end Rollback
