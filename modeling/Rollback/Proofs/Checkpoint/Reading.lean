import Rollback.Proofs.Checkpoint.Text
import Rollback.Proofs.Json.Restating

/-!
# Checkpoints in their own text

A checkpoint with a time that can be read is read back from its text if its levels are within the
reader's bound and its fractions are read as numbers, and cannot be read otherwise
(`Checkpoint.reads_render`). Without fractions it is read back as it was (`Checkpoint.reader_render`).
-/

namespace Rollback

open Rollback.Tree (ScannedTo)
open Yaml (Outline)

namespace Header

/-- What a header holds, by field. -/
def record (h : Header) : shape.Record
  | Field.id => h.id
  | Field.owner => h.owner
  | Field.createdAt => h.createdAt
  | Field.dependencies => h.dependencies

/-- The trees of a written header, by field. -/
def fieldTree (h : Header) : Field → Tree
  | .id => .string (some h.id.toString)
  | .owner => .string (some h.owner)
  | .createdAt => .string (some h.createdAt.toString)
  | .dependencies => dependenciesTree h.dependencies

/-- The parts of a header that are read. -/
def outline : Outline := .ofShape shape fun
  | Field.dependencies => .map .text
  | _ => .text

theorem takes_dependenciesTree (d : Dependencies) {place : Place} (room : 1 < place.room) :
    Takes (Reader.nameMap Reader.checkpointId) place (.map .text) (dependenciesTree d) d := by
  rw [dependenciesTree]
  exact takes_nameMap (fun id : CheckpointId => .string (some id.toString)) room fun id =>
    .of_text (Reader.checkpointId_toString _ id)

theorem takes_tree {h : Header} (readable : Instant.inRange h.createdAt.date = true) {place : Place}
    (room : 2 < place.room) : Takes reader place outline h.tree h := by
  refine Takes.map (@Shape.takes_reader shape place h.record _ h.fieldTree
    (by rintro (_ | _ | _ | _) <;> rfl) (by decide) (by rintro (_ | _ | _ | _) <;> nofun) (by omega)
    ?_) rfl
  intro f
  cases f with
  | id => exact .of_text (Reader.checkpointId_toString _ h.id)
  | owner => exact .of_text rfl
  | createdAt => exact .of_text (Reader.instant_toString readable _)
  | dependencies => exact takes_dependenciesTree h.dependencies (by dsimp only; omega)

theorem reader_tree {h : Header} (readable : Instant.inRange h.createdAt.date = true) {place : Place}
    (room : 2 < place.room) : reader place h.tree = .ok h :=
  (takes_tree readable room).eq_ok

/-- The levels of a header are few. -/
theorem legible_json (h : Header) {room : Nat} (enough : 2 < room) : h.json.Legible room := by
  have string : ∀ (s : String) (room : Nat), (Json.string s).Legible room :=
    fun s room => (Json.legible_flat rfl rfl).mpr trivial
  have dependencies : (dependenciesJson h.dependencies).Legible (room - 1) := by
    rw [dependenciesJson, Json.legible_object, List.forall_mem_map]
    exact ⟨by omega, fun _ _ => string _ _⟩
  rw [json, Json.legible_object]
  simp only [List.forall_mem_cons, string, dependencies, List.not_mem_nil, false_imp_iff,
    implies_true, and_true]
  omega

theorem fractions_json (h : Header) : h.json.fractions = [] := by
  have strings : (dependenciesJson h.dependencies).fractions = [] := by
    rw [dependenciesJson, Json.fractions_object_nil, List.forall_mem_map]
    exact fun _ _ => rfl
  rw [json, Json.fractions_object_nil]
  simp only [List.forall_mem_cons, strings, List.not_mem_nil, false_imp_iff, implies_true, and_true]
  exact ⟨rfl, rfl, rfl⟩

end Header

/-! ## Snapshots -/

theorem Tree.reads_json (v : Value) (place : Place) :
    Reads ((reread v.json).value place) (v.json.Legible place.room)
      (KeptIf (fun v => v.json.fractions = []) v) :=
  (reads_value v.canonical place).mono fun _ kept whole => Value.ext (kept whole)

namespace Snapshot

/-- The tree of a written snapshot. -/
def tree (s : Snapshot) : Tree := .object [(some "fields", Tree.reread s.fields.json)] true

theorem scannedTo_json (s : Snapshot) : ScannedTo s.json s.tree :=
  Tree.scannedTo_object (.cons ⟨rfl, Tree.scannedTo_reread (Value.object s.fields).canonical⟩ .nil)

theorem reads_fields (fields : Fields) (place : Place) :
    Reads (Reader.fields place (Tree.reread fields.json)) (fields.json.Legible place.room)
      (KeptIf (fun fields => fields.json.fractions = []) fields) := by
  have tree : Tree.reread fields.json =
      .object (fields.toList.map fun e => (some e.1, Tree.reread e.2.json)) true := by
    rw [Fields.json, Value.object, Tree.reread_object, List.map_map]
    rfl
  have level : fields.json.Legible place.room ↔
      1 < place.room ∧ ∀ e ∈ fields.toList, e.2.json.Legible (place.room - 1) := by
    rw [Fields.json, Value.object, Json.legible_object, List.forall_mem_map]
  have parts : fields.json.fractions = [] ↔ ∀ e ∈ fields.toList, e.2.json.fractions = [] := by
    rw [Fields.json, Value.object, Json.fractions_object_nil, List.forall_mem_map]
  have entries := @Reader.reads_nameMap _ Reader.value (fun v => Tree.reread v.json)
    (fun v => v.json.Legible (place.room - 1)) (fun v => v.json.fractions = []) place fields
    fun _ e _ => Tree.reads_json e.2 { place with room := place.room - 1 }
  rw [tree]
  exact (entries.congr level).mono fun found kept whole => kept (parts.mp whole)

theorem reads_tree (s : Snapshot) (place : Place) :
    Reads (reader place s.tree) (s.json.Legible place.room)
      (KeptIf (fun s => s.json.fractions = []) s) := by
  have level : s.json.Legible place.room ↔
      1 < place.room ∧ s.fields.json.Legible (place.room - 1) := by
    rw [json, Json.legible_object, List.forall_mem_singleton]
  have parts : s.json.fractions = [] ↔ s.fields.json.fractions = [] := by
    rw [json, Json.fractions_object_nil, List.forall_mem_singleton]
  have only : Reads (Shape.only "fields" Reader.fields place s.tree)
      (1 < place.room ∧ s.fields.json.Legible (place.room - 1)) _ :=
    Shape.reads_only fun _ => reads_fields s.fields { place with room := place.room - 1 }
  refine (only.map fun found kept whole => ?_).congr level
  rw [kept (parts.mp whole)]

theorem isWhole_tree (s : Snapshot) : s.tree.isWhole = true := by
  simp [tree, Tree.isWhole, Tree.haveWhole, Tree.isWhole_reread]

end Snapshot

/-! ## Checkpoints -/

namespace Checkpoint

variable {c : Checkpoint} {layout : Layout}

def snapshotsTree (snapshots : NameMap Snapshot) : Tree :=
  .object (snapshots.toList.map fun e => (some e.1, e.2.tree)) true

/-- The tree of a written checkpoint. -/
def tree (c : Checkpoint) : Tree :=
  .object [(some "metadata", c.header.tree), (some "snapshots", snapshotsTree c.snapshots)] true

theorem scannedTo_json (c : Checkpoint) : ScannedTo c.json c.tree := by
  refine Tree.scannedTo_object (.cons ⟨rfl, c.header.scannedTo_json⟩ (.cons ⟨rfl, ?_⟩ .nil))
  apply Tree.scannedTo_object
  rw [List.forall₂_map_left_iff, List.forall₂_map_right_iff, List.forall₂_same]
  exact fun e _ => ⟨rfl, e.2.scannedTo_json⟩

theorem run_render {α : Type} (read : Reader α) (c : Checkpoint) (layout : Layout) :
    read.run (c.json.render layout) = read .top c.tree := by
  simp only [Reader.run, Tree.documentOf_render c.scannedTo_json layout]
  cases read .top c.tree <;> rfl

/-- Reading a header needs no snapshot to be readable. -/
theorem headerReader_render (readable : Instant.inRange c.header.createdAt.date = true)
    (layout : Layout) : headerReader.run (c.json.render layout) = .ok c.header := by
  rw [run_render]
  refine Shape.only_eq_ok (by decide) (Header.reader_tree readable (by decide)) ?_ ?_
  · rintro m member
    rw [List.mem_singleton.mp member]
    exact ⟨"snapshots", rfl, by decide⟩
  · rintro m member
    rw [List.mem_singleton.mp member, snapshotsTree, Tree.isWhole, Bool.and_true, Tree.haveWhole_iff,
      List.forall_mem_map]
    exact fun e _ => e.2.isWhole_tree

/-- What a checkpoint holds, by field. -/
def record (c : Checkpoint) : shape.Record
  | Field.header => c.header
  | Field.snapshots => c.snapshots

/-- The trees of a written checkpoint, by field. -/
def fieldTree (c : Checkpoint) : Field → Tree
  | .header => c.header.tree
  | .snapshots => snapshotsTree c.snapshots

theorem legible_json_iff (c : Checkpoint) {room : Nat} (enough : 3 < room) : c.json.Legible room ↔
    1 < room - 1 ∧ ∀ e ∈ c.snapshots.toList, e.2.json.Legible (room - 1 - 1) := by
  have header : c.header.json.Legible (room - 1) := c.header.legible_json (by omega)
  rw [json, Json.legible_object]
  simp only [List.forall_mem_cons, header, List.not_mem_nil, false_imp_iff, implies_true, and_true,
    true_and, Json.legible_object, List.forall_mem_map]
  exact and_iff_right (by omega)

theorem fractions_json_iff (c : Checkpoint) : c.json.fractions = [] ↔
    ∀ e ∈ c.snapshots.toList, e.2.json.fractions = [] := by
  rw [json, Json.fractions_object_nil]
  simp only [List.forall_mem_cons, c.header.fractions_json, List.not_mem_nil, false_imp_iff,
    implies_true, and_true, true_and, Json.fractions_object_nil, List.forall_mem_map]

theorem reads_snapshotsTree (snapshots : NameMap Snapshot) (place : Place) :
    Reads (Reader.nameMap Snapshot.reader place (snapshotsTree snapshots))
      (1 < place.room ∧ ∀ e ∈ snapshots.toList, e.2.json.Legible (place.room - 1))
      (KeptIf (fun m => ∀ e ∈ m.toList, e.2.json.fractions = []) snapshots) :=
  @Reader.reads_nameMap _ Snapshot.reader Snapshot.tree (fun s => s.json.Legible (place.room - 1))
    (fun s => s.json.fractions = []) place snapshots
    fun _ e _ => e.2.reads_tree { place with room := place.room - 1 }

theorem reads_field (readable : Instant.inRange c.header.createdAt.date = true) {place : Place}
    (enough : 3 < place.room) (f : Field) :
    Reads (shape.read f { place with room := place.room - 1 } (c.fieldTree f))
      (f = .snapshots → c.json.Legible place.room)
      (fun a => (f = .header ∨ c.json.fractions = []) → a = c.record f) := by
  cases f with
  | header =>
    have room : 2 < place.room - 1 := by omega
    exact (Reads.of_eq (Header.reader_tree readable room) fun _ => rfl).congr (by simp)
  | snapshots =>
    have entries := reads_snapshotsTree c.snapshots { place with room := place.room - 1 }
    refine (entries.congr ?_).mono fun found kept whole => kept ?_
    · rw [c.legible_json_iff enough]
      simp
    · rw [fractions_json_iff] at whole
      simpa using whole

/-- A checkpoint that was read: the header is as it was written, and without fractions all is. -/
structure Recovers (written found : Checkpoint) : Prop where
  header : found.header = written.header
  whole : written.json.fractions = [] → found = written

theorem reads_tree (readable : Instant.inRange c.header.createdAt.date = true) {place : Place}
    (enough : 3 < place.room) :
    Reads (reader place c.tree) (c.json.Legible place.room) c.Recovers := by
  have read := @Shape.reads_reader shape c.fieldTree
    (fun f => f = Field.snapshots → c.json.Legible place.room)
    (fun f a => (f = Field.header ∨ c.json.fractions = []) → a = c.record f) place
    (by rintro (_ | _) <;> rfl) (by decide) (fun _ f => reads_field readable enough f)
  refine (read.map fun r held => ?_).congr ?_
  · have header : r Field.header = c.header := held Field.header (Or.inl rfl)
    refine ⟨header, fun whole => ?_⟩
    have snapshots : r Field.snapshots = c.snapshots := held Field.snapshots (Or.inr whole)
    rw [header, snapshots]
  · exact ⟨fun legible => ⟨by omega, fun _ _ => legible⟩, fun each => each.2 Field.snapshots rfl⟩

theorem reads_render (readable : Instant.inRange c.header.createdAt.date = true) (layout : Layout) :
    Reads (reader.run (c.json.render layout)) (c.json.Legible Place.top.room) c.Recovers := by
  rw [run_render]
  exact reads_tree readable (by decide)

theorem legible_top_iff {j : Json} : j.Legible Place.top.room ↔
    j.depth ≤ 127 ∧ ∀ x ∈ j.fractions, Tree.ofDouble x ≠ .overflow :=
  have room : Place.top.room = 128 := rfl
  ⟨fun legible => ⟨by have level := legible.depth; omega, legible.fractions⟩,
    fun both => ⟨by omega, both.2⟩⟩

/-- The checkpoint is read back from its text. -/
def ReadBack (c : Checkpoint) : Prop := ∀ layout, reader.run (c.json.render layout) = .ok c

theorem readBack_of_legible (readable : Instant.inRange c.header.createdAt.date = true)
    (whole : c.json.fractions = []) (levels : c.json.depth ≤ 127) : c.ReadBack := by
  intro layout
  have legible := legible_top_iff.mpr ⟨levels, by simp [whole]⟩
  exact (reads_render readable layout).eq_ok legible fun _ found => found.whole whole

/-- A checkpoint without fractions is read back from its text as it was, and so is its header alone,
if its time is one that can be read and its levels are no more than a reader enters. -/
theorem reader_render (readable : ∃ text, Instant.ofString? text = some c.header.createdAt)
    (whole : c.json.fractions = []) (levels : c.json.depth ≤ 127) (layout : Layout) :
    reader.run (c.json.render layout) = .ok c ∧
      headerReader.run (c.json.render layout) = .ok c.header := by
  obtain ⟨_, read⟩ := readable
  have range := Instant.inRange_of_ofString? read
  exact ⟨readBack_of_legible range whole levels layout, headerReader_render range layout⟩

/-- A checkpoint of a leap second in front of the year zero, with names that need escapes. -/
def atLeapSecond : Checkpoint where
  header :=
    { id := .nil
      owner := "sink \"1\"\n"
      createdAt := ⟨⟨-1, 6, 30, by decide, by decide, by decide, by decide⟩, 86399, 1500000000,
        by decide, by decide, by decide⟩
      dependencies := (∅ : Dependencies).insert "\\\u0001é" .nil }
  snapshots := (∅ : NameMap Snapshot).insert "" ⟨(∅ : Fields).insert "metadata"
    (.array [.null, .object ∅, ⟨.integer (-9223372036854775808), by decide⟩])⟩

theorem reader_render_atLeapSecond :
    Reader.run reader (atLeapSecond.json.render .indented) = .ok atLeapSecond ∧
      headerReader.run (atLeapSecond.json.render .indented) = .ok atLeapSecond.header :=
  reader_render ⟨"-0001-06-30T23:59:60.5Z", by decide +kernel⟩ (by decide +kernel) (by decide +kernel)
    .indented

end Checkpoint

end Rollback
