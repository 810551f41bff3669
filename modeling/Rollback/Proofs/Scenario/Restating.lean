import Rollback.Proofs.Checkpoint.Reading
import Rollback.Proofs.Json.Restating
import Rollback.Scenario.Basic

/-!
# Scenarios in other words

A scenario is read from every document that says the same as its own one (`Scenario.takes_json`), and
so are the headers and the graph in it.
-/

namespace Rollback

open Yaml (Outline)
open Rollback.Tree (Exact ofJson ofJson_array ofJson_object)

/-! ## Headers -/

namespace Header

theorem ofJson_dependencies (d : Dependencies) : ofJson (dependenciesJson d) = dependenciesTree d := by
  rw [dependenciesJson, ofJson_object, List.map_map]
  rfl

theorem ofJson_json (h : Header) : ofJson h.json = h.tree := by
  rw [json, ofJson_object]
  simp only [List.map_cons, List.map_nil, ofJson_dependencies]
  rfl

theorem exact_dependencies (d : Dependencies) : Exact (dependenciesJson d) := by
  rw [Exact, ofJson_dependencies]
  exact scannedTo_dependenciesJson d

theorem exact_json (h : Header) : Exact h.json := by
  rw [Exact, ofJson_json]
  exact h.scannedTo_json

theorem takes_json {h : Header} (readable : Instant.inRange h.createdAt.date = true) {place : Place}
    (room : 2 < place.room) : Takes reader place outline (ofJson h.json) h := by
  rw [ofJson_json]
  exact takes_tree readable room

theorem hasValue_dependencies (d : Dependencies) : (dependenciesJson d).HasValue 1 := by
  rw [dependenciesJson]
  exact Json.hasValue_object (List.forall_mem_map.mpr fun _ _ => Json.hasValue_string _)

theorem hasValue_json (h : Header) : h.json.HasValue 2 := by
  have string : ∀ s, (Json.string s).HasValue 1 := fun s => (Json.hasValue_string s).mono (by decide)
  rw [json]
  apply Json.hasValue_object
  simp only [List.forall_mem_cons, string, hasValue_dependencies, List.not_mem_nil, false_imp_iff,
    implies_true, and_true]

end Header

/-! ## Graphs -/

/-- The members of a set make the set. -/
theorem ofList_toList {α : Type} [DecidableEq α] [Ord α] [Std.TransOrd α] [Std.LawfulEqOrd α]
    (s : Std.ExtTreeSet α) : Std.ExtTreeSet.ofList s.toList = s := by
  apply Std.ExtTreeSet.ext_mem
  intro a
  rw [Std.ExtTreeSet.mem_ofList, List.contains_iff_mem, Std.ExtTreeSet.mem_toList]

namespace Edge

def outline : Outline := .ofShape shape fun _ => .text

/-- The trees of a written edge, by field. -/
def fieldTree (e : Edge) : Field → Tree
  | .source => .string (some e.source)
  | .target => .string (some e.target)

/-- What an edge holds, by field. -/
def record (e : Edge) : shape.Record
  | Field.source => e.source
  | Field.target => e.target

theorem takes_json (e : Edge) {place : Place} (room : 1 < place.room) :
    Takes reader place outline (ofJson e.json) e := by
  have tree : ofJson e.json =
      .object (shape.fields.map fun f => (some (shape.name f), e.fieldTree f)) true := by
    rw [json, ofJson_object]
    rfl
  rw [tree]
  refine (Shape.takes_reader (r := e.record) (by rintro (_ | _) <;> rfl) (by decide)
    (by rintro (_ | _) <;> nofun) room ?_).map rfl
  rintro (_ | _)
  · exact .of_text rfl
  · exact .of_text rfl

theorem exact_json (e : Edge) : Exact e.json := by
  rw [json]
  exact Tree.exact_object (by simp [Tree.exact_string])

end Edge

namespace Graph

def outline : Outline := .ofShape shape fun
  | Field.instances => .list .text
  | Field.edges => .list Edge.outline

/-- The trees of a written graph, by field. -/
def fieldTree (g : Graph) : Field → Tree
  | .instances => .array (g.instances.toList.map fun name => .string (some name)) true
  | .edges => .array (g.edges.toList.map fun e => ofJson e.json) true

/-- What a graph holds, by field. -/
def record (g : Graph) : shape.Record
  | Field.instances => g.instances
  | Field.edges => g.edges

theorem ofJson_json (g : Graph) : ofJson g.json =
    .object (shape.fields.map fun f => (some (shape.name f), g.fieldTree f)) true := by
  rw [json, ofJson_object]
  simp only [List.map_cons, List.map_nil, ofJson_array, List.map_map]
  rfl

theorem takes_json (g : Graph) {place : Place} (room : 3 < place.room) :
    Takes reader place outline (ofJson g.json) g := by
  rw [ofJson_json]
  refine (Shape.takes_reader (r := g.record) (by rintro (_ | _) <;> rfl) (by decide)
    (by rintro (_ | _) <;> nofun) (by omega) ?_).map rfl
  intro f
  cases f with
  | instances =>
    have room : 1 < place.room - 1 := by omega
    exact (takes_list _ room fun _ _ => .of_text rfl).map (ofList_toList g.instances)
  | edges =>
    have inner : 1 < place.room - 1 := by omega
    have room : 1 < place.room - 1 - 1 := by omega
    exact (takes_list (fun e => ofJson (Edge.json e)) inner fun e _ => Edge.takes_json e room).map
      (ofList_toList g.edges)

theorem exact_json (g : Graph) : Exact g.json := by
  rw [json]
  apply Tree.exact_object
  simp only [List.forall_mem_cons, List.not_mem_nil, false_imp_iff, implies_true, and_true]
  exact ⟨Tree.exact_array (List.forall_mem_map.mpr fun _ _ => Tree.exact_string _),
    Tree.exact_array (List.forall_mem_map.mpr fun e _ => e.exact_json)⟩

end Graph

/-! ## Scenarios -/

namespace Scenario

/-- The times of all checkpoints are ones that can be read. -/
def Readable (s : Scenario) : Prop :=
  ∀ h ∈ s.checkpoints, ∃ text, Instant.ofString? text = some h.createdAt

/-- The trees of a written scenario, by field. -/
def fieldTree (s : Scenario) : Field → Tree
  | .graph => ofJson s.graph.json
  | .checkpoints => .array (s.checkpoints.map fun h => ofJson h.json) true
  | .failed => .array (s.failed.map fun name => .string (some name)) true

/-- What a scenario holds, by field. -/
def record (s : Scenario) : shape.Record
  | Field.graph => s.graph
  | Field.checkpoints => s.checkpoints
  | Field.failed => s.failed

theorem ofJson_json (s : Scenario) : ofJson s.json =
    .object (shape.fields.map fun f => (some (shape.name f), s.fieldTree f)) true := by
  rw [json, ofJson_object]
  simp only [List.map_cons, List.map_nil, ofJson_array, List.map_map]
  rfl

theorem takes_json {s : Scenario} (readable : s.Readable) {place : Place} (room : 4 < place.room) :
    Takes reader place outline (ofJson s.json) s := by
  rw [ofJson_json]
  refine (Shape.takes_reader (r := s.record) (by rintro (_ | _ | _) <;> rfl) (by decide)
    (by rintro (_ | _ | _) <;> nofun) (by omega) ?_).map rfl
  intro f
  cases f with
  | graph => exact s.graph.takes_json (by dsimp only; omega)
  | checkpoints =>
    refine takes_list _ (by dsimp only; omega) fun h member => ?_
    obtain ⟨_, read⟩ := readable h member
    exact Header.takes_json (Instant.inRange_of_ofString? read) (by dsimp only; omega)
  | failed => exact takes_list _ (by dsimp only; omega) fun _ _ => .of_text rfl

theorem exact_json (s : Scenario) : Exact s.json := by
  rw [json]
  apply Tree.exact_object
  simp only [List.forall_mem_cons, s.graph.exact_json, List.not_mem_nil, false_imp_iff, implies_true,
    and_true, true_and]
  exact ⟨Tree.exact_array (List.forall_mem_map.mpr fun h _ => h.exact_json),
    Tree.exact_array (List.forall_mem_map.mpr fun _ _ => Tree.exact_string _)⟩

end Scenario

end Rollback
