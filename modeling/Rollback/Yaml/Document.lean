import Rollback.Json.Record
import Rollback.Yaml.Node

/-!
# Documents in YAML

The node of a document becomes a tree for the readers of records. Every scalar is a text, whatever
it looks like, but for an empty plain one, which leaves its place vacant. A reference stands for the
node that it refers to. References are followed only in the parts of a document that are looked at,
so that each path of references is as long as the data is deep, and at most a hundred times as often
as the document has events.
-/

namespace Rollback.Yaml

/-- The parts of a document that a reader looks at. -/
inductive Outline where
  | ignored
  | text
  | list (item : Outline)
  | map (item : Outline)
  /-- The part of each member by its name. -/
  | record (part : String → Outline)

/-- The outline of a record whose fields have these outlines. -/
def Outline.ofShape (shape : Shape) (part : shape.Field → Outline) : Outline :=
  .record fun name => ((shape.ofName name).map part).getD .ignored

namespace Node

def isReference : Node → Bool
  | reference _ => true
  | _ => false

mutual
/-- How many events make up a node: its scalars and references, and two for each collection. -/
def events : Node → Nat
  | scalar .. | reference _ => 1
  | sequence items => eventsOfItems items + 2
  | mapping members => eventsOfMembers members + 2

def eventsOfItems : List Node → Nat
  | [] => 0
  | node :: rest => events node + eventsOfItems rest

def eventsOfMembers : List (Node × Node) → Nat
  | [] => 0
  | (key, value) :: rest => events key + events value + eventsOfMembers rest
end

/-- The node itself, or the one that it refers to. -/
def target (anchors : Anchors) (node : Node) : Node :=
  match node with
  | reference number => (anchors.node? number).getD node
  | _ => node

/-- The text of a key; only a scalar has one. -/
def keyText? (anchors : Anchors) (key : Node) : Option String :=
  match key.target anchors with
  | scalar text _ => some text
  | _ => none

/-- The tree of a node of which no part is looked at. -/
def leaf : Node → Tree
  | scalar text plain => if plain && text.isEmpty then .vacant else .string (some text)
  | reference _ => .broken
  | sequence _ => .array [] true
  | mapping _ => .object [] true

/-- Follows references while steps are left. -/
abbrev Steps := StateT Nat Option

/-- Takes a step, if a node is a reference. -/
def step (node : Node) : Steps Unit := do
  if node.isReference then
    match ← get with
    | 0 => failure
    | left + 1 => set left

def member (anchors : Anchors) (unfold : Node → Steps Tree) (key value : Node) :
    Steps (Option String × Tree) := do
  key.step
  return (key.keyText? anchors, ← unfold value)

def unfold (anchors : Anchors) (outline : Outline) (node : Node) : Steps Tree := do
  match outline with
  | .ignored => return .null
  | .text =>
    node.step
    return leaf (node.target anchors)
  | .list item =>
    node.step
    match node.target anchors with
    | sequence items => return .array (← items.mapM (unfold anchors item)) true
    | other => return leaf other
  | .map item =>
    node.step
    match node.target anchors with
    | mapping members =>
      return .object (← members.mapM fun (key, value) =>
        member anchors (unfold anchors item) key value) true
    | other => return leaf other
  | .record part =>
    node.step
    match node.target anchors with
    | mapping members =>
      return .object (← members.mapM fun (key, value) =>
        member anchors (unfold anchors (part ((key.keyText? anchors).getD ""))) key value) true
    | other => return leaf other

end Node

/-- How often a document may follow references for each of its events. -/
def stepsPerEvent : Nat := 100

/-- The tree of a text that is one document, as far as it is looked at. -/
def treeOf? (outline : Outline) (text : String) : Option Tree := do
  let tokens ← Token.ofText? text
  let (node, anchors) ← Node.ofTokens? tokens.toList
  (node.unfold anchors outline).run' (stepsPerEvent * node.events)

end Rollback.Yaml

namespace Rollback

/-- Reads the document in a YAML text; nothing if the text is none or has another shape. A record is
a mapping there. -/
def Reader.runYaml? {α : Type} (read : Reader α) (outline : Yaml.Outline) (text : String) :
    Option α := do
  (read { Place.top with arrays := false } (← Yaml.treeOf? outline text)).toOption

end Rollback
