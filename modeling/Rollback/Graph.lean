import Rollback.Json.Record
import Std.Data.ExtTreeSet

/-!
# The graph of instances

Edges point in the direction in which data flows; cycles are ordinary edges. A graph keeps the
instances that were named on their own apart from the ends of its edges, since a document may
list an instance in an edge only.
-/

namespace Rollback

/-- A set of names, which are ordered by their code points. -/
abbrev NameSet := Std.ExtTreeSet String

def NameSet.ofNames (names : List String) : NameSet := .ofList names

theorem NameSet.mem_ofNames {names : List String} {name : String} :
    name ∈ NameSet.ofNames names ↔ name ∈ names := by
  simp [NameSet.ofNames, Std.ExtTreeSet.mem_ofList]

def Reader.nameSet : Reader NameSet := (Reader.list Reader.text).map NameSet.ofNames

/-- Data flows from the source to the target. -/
structure Edge where
  source : String
  target : String
  deriving DecidableEq

namespace Edge

instance : Ord Edge := ⟨compareLex (compareOn source) (compareOn target)⟩

instance : Std.TransOrd Edge :=
  inferInstanceAs (Std.TransCmp (compareLex (compareOn source) (compareOn target)))

theorem compare_eq (a b : Edge) :
    compare a b = (compare a.source b.source).then (compare a.target b.target) := rfl

instance : Std.LawfulEqOrd Edge where
  eq_of_compare {a b} h := by
    rw [compare_eq, Ordering.then_eq_eq] at h
    obtain ⟨hs, ht⟩ := h
    cases a; cases b
    have hs := Std.LawfulEqOrd.eq_of_compare hs
    have ht := Std.LawfulEqOrd.eq_of_compare ht
    simp_all

def json (e : Edge) : Json := .object [("from", .string e.source), ("to", .string e.target)]

inductive Field where
  | source
  | target
  deriving DecidableEq

def shape : Shape where
  Field := Field
  fields := [.source, .target]
  complete f := by cases f <;> simp
  name
    | .source => "from"
    | .target => "to"
  Content _ := String
  read _ := Reader.text

def reader : Reader Edge := shape.reader.map fun r => ⟨r Field.source, r Field.target⟩

end Edge

/-- The instances of a dataflow and the edges between them. -/
structure Graph where
  instances : NameSet
  edges : Std.ExtTreeSet Edge
  deriving DecidableEq

namespace Graph

def empty : Graph := ⟨∅, ∅⟩

instance : Inhabited Graph := ⟨empty⟩

def addInstance (g : Graph) (name : String) : Graph :=
  { g with instances := g.instances.insert name }

/-- Adds an edge and names both of its ends. -/
def addEdge (g : Graph) (source target : String) : Graph where
  instances := (g.instances.insert source).insert target
  edges := g.edges.insert ⟨source, target⟩

/-- Every instance, the ends of edges included. -/
def names (g : Graph) : NameSet :=
  g.edges.toList.foldl (fun all e => (all.insert e.source).insert e.target) g.instances

/-- The instances with an edge into this one. -/
def sources (g : Graph) (name : String) : NameSet :=
  .ofList ((g.edges.toList.filter (·.target = name)).map (·.source))

/-- The instances with an edge from this one. -/
def targets (g : Graph) (name : String) : NameSet :=
  .ofList ((g.edges.toList.filter (·.source = name)).map (·.target))

theorem mem_sources {g : Graph} {name peer : String} :
    peer ∈ g.sources name ↔ (⟨peer, name⟩ : Edge) ∈ g.edges := by
  simp only [sources, Std.ExtTreeSet.mem_ofList, List.contains_iff_mem, List.mem_map,
    List.mem_filter, Std.ExtTreeSet.mem_toList, decide_eq_true_eq]
  constructor
  · rintro ⟨⟨s, t⟩, ⟨he, rfl⟩, rfl⟩
    exact he
  · intro he
    exact ⟨_, ⟨he, rfl⟩, rfl⟩

theorem mem_targets {g : Graph} {name peer : String} :
    peer ∈ g.targets name ↔ (⟨name, peer⟩ : Edge) ∈ g.edges := by
  simp only [targets, Std.ExtTreeSet.mem_ofList, List.contains_iff_mem, List.mem_map,
    List.mem_filter, Std.ExtTreeSet.mem_toList, decide_eq_true_eq]
  constructor
  · rintro ⟨⟨s, t⟩, ⟨he, rfl⟩, rfl⟩
    exact he
  · intro he
    exact ⟨_, ⟨he, rfl⟩, rfl⟩

theorem mem_foldl_ends {edges : List Edge} {all : NameSet} {name : String} :
    name ∈ edges.foldl (fun all e => (all.insert e.source).insert e.target) all ↔
      name ∈ all ∨ ∃ e ∈ edges, e.source = name ∨ e.target = name := by
  induction edges generalizing all with
  | nil => simp
  | cons e rest ih =>
    rw [List.foldl_cons, ih]
    simp only [Std.ExtTreeSet.mem_insert, Std.LawfulEqCmp.compare_eq_iff_eq, List.mem_cons]
    grind

theorem mem_names {g : Graph} {name : String} :
    name ∈ g.names ↔ name ∈ g.instances ∨ ∃ e ∈ g.edges, e.source = name ∨ e.target = name := by
  simp [names, mem_foldl_ends, Std.ExtTreeSet.mem_toList]

def json (g : Graph) : Json := .object [
  ("instances", .array (g.instances.toList.map .string)),
  ("connections", .array (g.edges.toList.map Edge.json))]

inductive Field where
  | instances
  | edges
  deriving DecidableEq

@[reducible] def Field.Content : Field → Type
  | instances => NameSet
  | edges => Std.ExtTreeSet Edge

def shape : Shape where
  Field := Field
  fields := [.instances, .edges]
  complete f := by cases f <;> simp
  name
    | .instances => "instances"
    | .edges => "connections"
  Content := Field.Content
  read
    | .instances => Reader.nameSet
    | .edges => (Reader.list Edge.reader).map fun edges => .ofList edges
  fallback
    | .instances => some ∅
    | .edges => some ∅

def reader : Reader Graph := shape.reader.map fun r => ⟨r Field.instances, r Field.edges⟩

end Graph

end Rollback
