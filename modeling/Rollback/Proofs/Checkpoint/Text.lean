import Rollback.Checkpoint
import Rollback.Proofs.Instant.Text
import Rollback.Proofs.Json.Records
import Rollback.Proofs.Json.Scanning
import Rollback.Proofs.NameMap
import Rollback.Proofs.Text.Hexadecimal

/-!
# Headers in the text of a checkpoint

A header is written with strings only, so its tree is known (`Header.scannedTo_json`). Whatever a
reader makes of the whole checkpoint, a header that is read from it is the one that was written
(`Checkpoint.header_of_render`): the snapshots stand behind it and cannot change it any more. The
same is true of a whole checkpoint that is read (`Checkpoint.header_of_reader_render`).
-/

namespace Rollback

open Rollback.Tree (ScannedTo)

namespace Reader

theorem read_of_run {α : Type} {read : Reader α} {text : String} {a : α}
    (found : read.run text = .ok a) : read .top (Tree.documentOf text).tree = .ok a := by
  obtain ⟨b, first, ended⟩ := Outcome.bind_eq_ok_iff.mp found
  split at ended
  · cases ended
    exact first
  · cases ended

theorem parsed_string {α : Type} (parse : String → Option α) (place : Place) (s : String) :
    parsed parse place (.string (some s)) =
      match parse s with
      | some a => .ok a
      | none => .error .mismatch := rfl

theorem checkpointId_toString (place : Place) (id : CheckpointId) :
    checkpointId place (.string (some id.toString)) = .ok id := by
  rw [checkpointId, parsed_string, CheckpointId.ofString?_toString]

theorem instant_toString {t : Instant} (readable : Instant.inRange t.date = true) (place : Place) :
    instant place (.string (some t.toString)) = .ok t := by
  rw [instant, parsed_string, Instant.ofString?_toString, if_pos readable]

theorem readable_of_instant {place : Place} {t t' : Instant}
    (read : instant place (.string (some t.toString)) = .ok t') : Instant.inRange t.date = true := by
  by_contra unreadable
  rw [instant, parsed_string, Instant.ofString?_toString, if_neg unreadable] at read
  cases read

theorem eq_of_instant {place : Place} {t t' : Instant}
    (read : instant place (.string (some t.toString)) = .ok t') : t' = t := by
  rw [instant, parsed_string, Instant.ofString?_toString] at read
  split at read
  · rename_i found
    split at found
    · cases found
      cases read
      rfl
    · cases found
  · cases read

end Reader

namespace Header

/-- The tree of written dependencies. -/
def dependenciesTree (d : Dependencies) : Tree :=
  .object (d.toList.map fun e => (some e.1, .string (some e.2.toString))) true

/-- The tree of a written header. -/
def tree (h : Header) : Tree :=
  .object [
    (some "id", .string (some h.id.toString)),
    (some "instance_name", .string (some h.owner)),
    (some "created_at", .string (some h.createdAt.toString)),
    (some "dependencies", dependenciesTree h.dependencies)] true

theorem scannedTo_dependenciesJson (d : Dependencies) :
    ScannedTo (dependenciesJson d) (dependenciesTree d) := by
  apply Tree.scannedTo_object
  rw [List.forall₂_map_left_iff, List.forall₂_map_right_iff, List.forall₂_same]
  exact fun e _ => ⟨rfl, Tree.scannedTo_string _⟩

theorem scannedTo_json (h : Header) : ScannedTo h.json h.tree := by
  apply Tree.scannedTo_object
  refine .cons ⟨rfl, Tree.scannedTo_string _⟩ (.cons ⟨rfl, Tree.scannedTo_string _⟩
    (.cons ⟨rfl, Tree.scannedTo_string _⟩ (.cons ⟨rfl, scannedTo_dependenciesJson _⟩ .nil)))

theorem eq_of_dependencies {place : Place} {d d' : Dependencies}
    (read : Reader.nameMap Reader.checkpointId place (dependenciesTree d) = .ok d') : d' = d := by
  rw [dependenciesTree, Reader.nameMap] at read
  obtain ⟨inner, _, read⟩ := Outcome.bind_eq_ok_iff.mp read
  rw [Reader.members_map (Reader.checkpointId_toString inner),
    ← Std.ExtTreeMap.ofList_eq_insertMany_empty, NameMap.ofList_toList] at read
  cases read
  rfl

theorem readable_of_reader {place : Place} {h h' : Header} (read : reader place h.tree = .ok h') :
    Instant.inRange h.createdAt.date = true := by
  obtain ⟨_, record, _⟩ := Reader.map_eq_ok_iff.mp read
  obtain ⟨_, createdAt⟩ :=
    Shape.exists_read (f := Field.createdAt) record (.tail _ (.tail _ (.head _))) rfl
  exact Reader.readable_of_instant createdAt

theorem eq_of_reader {place : Place} {h h' : Header} (read : reader place h.tree = .ok h') :
    h' = h := by
  obtain ⟨r, record, rfl⟩ := Reader.map_eq_ok_iff.mp read
  obtain ⟨_, id⟩ := Shape.exists_read (f := Field.id) record (.head _) rfl
  obtain ⟨_, owner⟩ := Shape.exists_read (f := Field.owner) record (.tail _ (.head _)) rfl
  obtain ⟨_, createdAt⟩ :=
    Shape.exists_read (f := Field.createdAt) record (.tail _ (.tail _ (.head _))) rfl
  obtain ⟨_, dependencies⟩ := Shape.exists_read (f := Field.dependencies) record
    (.tail _ (.tail _ (.tail _ (.head _)))) rfl
  have sameId : h.id = r Field.id :=
    Except.ok.inj ((Reader.checkpointId_toString _ h.id).symm.trans id)
  have sameOwner : h.owner = r Field.owner := Except.ok.inj owner
  have sameTime : r Field.createdAt = h.createdAt := Reader.eq_of_instant createdAt
  have sameDependencies : r Field.dependencies = h.dependencies := eq_of_dependencies dependencies
  rw [← sameId, ← sameOwner, sameTime, sameDependencies]

end Header

namespace Checkpoint

variable {c : Checkpoint} {layout : Layout}

/-- The header is the first member of a written checkpoint. -/
theorem exists_documentOf_render (c : Checkpoint) (layout : Layout) : ∃ more closed ended,
    Tree.documentOf (c.json.render layout) =
      ⟨.object ((some "metadata", c.header.tree) :: more) closed, ended⟩ :=
  Tree.documentOf_first c.header.scannedTo_json "metadata" _ layout

theorem header_of_render {h : Header} (read : headerReader.run (c.json.render layout) = .ok h) :
    h = c.header := by
  obtain ⟨more, closed, ended, document⟩ := c.exists_documentOf_render layout
  have first := Reader.read_of_run read
  rw [document] at first
  exact Header.eq_of_reader (Shape.exists_read_only first (.head _)).choose_spec

theorem exists_read_header {k : Checkpoint} (read : reader.run (c.json.render layout) = .ok k) :
    ∃ place, Header.reader place c.header.tree = .ok k.header := by
  obtain ⟨more, closed, ended, document⟩ := c.exists_documentOf_render layout
  have first := Reader.read_of_run read
  rw [document] at first
  obtain ⟨r, record, rfl⟩ := Reader.map_eq_ok_iff.mp first
  exact Shape.exists_read (f := Field.header) record (.head _) rfl

/-- Whatever the snapshots are read to, the header is as it was. -/
theorem header_of_reader_render {k : Checkpoint}
    (read : reader.run (c.json.render layout) = .ok k) : k.header = c.header :=
  Header.eq_of_reader (exists_read_header read).choose_spec

theorem readable_of_reader_render {k : Checkpoint}
    (read : reader.run (c.json.render layout) = .ok k) :
    Instant.inRange c.header.createdAt.date = true :=
  Header.readable_of_reader (exists_read_header read).choose_spec

end Checkpoint

end Rollback
