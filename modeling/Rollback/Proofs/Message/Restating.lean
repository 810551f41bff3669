import Rollback.Message.Control
import Rollback.Proofs.Json.Tags
import Rollback.Proofs.Scenario.Restating
import Rollback.Proofs.Store.Requests

/-!
# Control messages in other words

A message is read from every document that says the same as its own one, if the document can be read
as a value at all: what stands among the members of a message is kept until the tag is known
(`Control.run_restated`). With scenarios, which pass over what they do not ask for, this is
`restated_read`.
-/

namespace Rollback

open Yaml (Outline)
open Rollback.Tree (Exact ofJson ofJson_object)

/-! ## Payloads -/

theorem Reader.word_toNat (place : Place) (n : UInt64) :
    word place (.integer n.toNat) = .ok n := by
  have bounds : (0 : Int) ≤ n.toNat ∧ (n.toNat : Int).toNat < UInt64.size :=
    ⟨Int.natCast_nonneg _, by simpa using n.toNat_lt⟩
  rw [word, Reader.map, natural, if_pos bounds, Except.map, Int.toNat_natCast, Nat.toUInt64,
    UInt64.ofNat_toNat]

theorem fits_toNat (n : UInt64) : Json.fits n.toNat = true := by
  have bound := n.toNat_lt
  simp only [Json.fits, Bool.and_eq_true, decide_eq_true_eq]
  omega

namespace SequenceNumbers

theorem ofJson_json (numbers : SequenceNumbers) : ofJson numbers.json =
    .object (numbers.toList.map fun e => (some e.1, .integer e.2.toNat)) true := by
  rw [json, ofJson_object, List.map_map]
  rfl

theorem takes_json (numbers : SequenceNumbers) {place : Place} (room : 1 < place.room) :
    Takes Reader.sequenceNumbers place (.map .text) (ofJson numbers.json) numbers := by
  rw [ofJson_json]
  exact takes_nameMap (fun n => .integer n.toNat) room fun n => .of_text (Reader.word_toNat _ n)

theorem exact_json (numbers : SequenceNumbers) : Exact numbers.json := by
  rw [json]
  exact Tree.exact_object (List.forall_mem_map.mpr fun e _ => Tree.exact_integer (fits_toNat e.2))

theorem hasValue_json (numbers : SequenceNumbers) : numbers.json.HasValue 1 := by
  rw [json]
  exact Json.hasValue_object (List.forall_mem_map.mpr fun e _ =>
    Json.hasValue_integer (fits_toNat e.2))

end SequenceNumbers

namespace TakenNotice

def outline : Outline := .ofShape shape fun
  | Field.checkpoint | Field.origin => .text
  | Field.sequenceNumbers => .map .text
  | Field.header => Header.outline

/-- The trees of a written notice, by field. -/
def fieldTree (m : TakenNotice) : Field → Tree
  | .checkpoint => .string (some m.checkpoint.toString)
  | .origin => .string (some m.origin)
  | .sequenceNumbers => ofJson m.sequenceNumbers.json
  | .header => ofJson m.header.json

/-- What a notice holds, by field. -/
def record (m : TakenNotice) : shape.Record
  | Field.checkpoint => m.checkpoint
  | Field.origin => m.origin
  | Field.sequenceNumbers => m.sequenceNumbers
  | Field.header => m.header

theorem takes_members {m : TakenNotice} (readable : Instant.inRange m.header.createdAt.date = true)
    {place : Place} (room : 3 < place.room) :
    Takes reader place outline (ofJson (.object m.members)) m := by
  have tree : ofJson (.object m.members) =
      .object (shape.fields.map fun f => (some (shape.name f), m.fieldTree f)) true := by
    rw [ofJson_object]
    rfl
  rw [tree]
  refine (Shape.takes_reader (r := m.record) (by rintro (_ | _ | _ | _) <;> rfl) (by decide)
    (by rintro (_ | _ | _ | _) <;> nofun) (by omega) ?_).map rfl
  intro f
  cases f with
  | checkpoint => exact .of_text (Reader.checkpointId_toString _ m.checkpoint)
  | origin => exact .of_text rfl
  | sequenceNumbers => exact m.sequenceNumbers.takes_json (by dsimp only; omega)
  | header => exact Header.takes_json readable (by dsimp only; omega)

end TakenNotice

namespace RestoreRequest

def outline : Outline := .ofShape (Shape.single "checkpoint_id" Reader.checkpointId) fun _ => .text

theorem takes_members (m : RestoreRequest) {place : Place} (room : 1 < place.room) :
    Takes reader place outline (ofJson (.object m.members)) m := by
  rw [ofJson_object]
  have id : Takes Reader.checkpointId { place with room := place.room - 1 } .text
      (.string (some m.checkpoint.toString)) m.checkpoint :=
    .of_text (Reader.checkpointId_toString _ m.checkpoint)
  exact (Shape.takes_only (by nofun) room id).map rfl

end RestoreRequest

namespace RestoreCompletion

def outline : Outline := .ofShape shape fun _ => .text

/-- The trees of a written completion, by field. -/
def fieldTree (m : RestoreCompletion) : Field → Tree
  | .name => .string (some m.name)
  | .checkpoint => .string (some m.checkpoint.toString)

/-- What a completion holds, by field. -/
def record (m : RestoreCompletion) : shape.Record
  | Field.name => m.name
  | Field.checkpoint => m.checkpoint

theorem takes_members (m : RestoreCompletion) {place : Place} (room : 1 < place.room) :
    Takes reader place outline (ofJson (.object m.members)) m := by
  have tree : ofJson (.object m.members) =
      .object (shape.fields.map fun f => (some (shape.name f), m.fieldTree f)) true := by
    rw [ofJson_object]
    rfl
  rw [tree]
  refine (Shape.takes_reader (r := m.record) (by rintro (_ | _) <;> rfl) (by decide)
    (by rintro (_ | _) <;> nofun) room ?_).map rfl
  intro f
  cases f with
  | name => exact .of_text rfl
  | checkpoint => exact .of_text (Reader.checkpointId_toString _ m.checkpoint)

end RestoreCompletion

namespace PruneRequest

def outline : Outline := .ofShape shape fun _ => .text

/-- The trees of a written request, by field. -/
def fieldTree (m : PruneRequest) : Field → Tree
  | .receiver => .string (some m.receiver)
  | .upTo => .integer m.upTo.toNat

/-- What a request holds, by field. -/
def record (m : PruneRequest) : shape.Record
  | Field.receiver => m.receiver
  | Field.upTo => m.upTo

theorem takes_members (m : PruneRequest) {place : Place} (room : 1 < place.room) :
    Takes reader place outline (ofJson (.object m.members)) m := by
  have tree : ofJson (.object m.members) =
      .object (shape.fields.map fun f => (some (shape.name f), m.fieldTree f)) true := by
    rw [ofJson_object]
    rfl
  rw [tree]
  refine (Shape.takes_reader (r := m.record) (by rintro (_ | _) <;> rfl) (by decide)
    (by rintro (_ | _) <;> nofun) room ?_).map rfl
  intro f
  cases f with
  | receiver => exact .of_text rfl
  | upTo => exact .of_text (Reader.word_toNat _ m.upTo)

end PruneRequest

/-! ## Control messages -/

namespace Control

/-- The times of the message are ones that can be read. -/
def Readable : Control → Prop
  | taken m => ∃ text, Instant.ofString? text = some m.header.createdAt
  | restoreRequest _ | restoreCompletion _ | prune _ => True

/-- The parts of a message that are read once its tag is known. -/
def Kind.body : Kind → Outline
  | taken => TakenNotice.outline
  | restoreRequest => RestoreRequest.outline
  | restoreCompletion => RestoreCompletion.outline
  | prune => PruneRequest.outline

/-- The parts of a message that are read. -/
def Kind.outline (k : Kind) : Outline := k.body.withTag "type"

/-- The tag of this kind stands among the members, these are the others, and none of them is a tag. -/
def Kind.IsAmong (k : Kind) (members others : List (Option String × Tree)) : Prop :=
  ∃ front back, members = front ++ (some "type", .string (some k.tag)) :: back ∧
    others = front ++ back ∧ Untagged "type" others

theorem takes_members {m : Control} (readable : m.Readable) {place : Place} (room : 3 < place.room) :
    Takes m.kind.reader place m.kind.body (ofJson (.object m.members)) m := by
  cases m with
  | taken m =>
    obtain ⟨_, read⟩ := readable
    exact (m.takes_members (Instant.inRange_of_ofString? read) room).map rfl
  | restoreRequest m => exact (m.takes_members (by omega)).map rfl
  | restoreCompletion m => exact (m.takes_members (by omega)).map rfl
  | prune m => exact (m.takes_members (by omega)).map rfl

/-- What is read for a kind is of this kind. -/
theorem kind_of_reader {k : Kind} {place : Place} {t : Tree} {m : Control}
    (read : k.reader place t = .ok m) : m.kind = k := by
  cases k <;> obtain ⟨_, _, rfl⟩ := Reader.map_eq_ok_iff.mp read <;> rfl

theorem lookup_tag (k : Kind) : Kind.tags.lookup k.tag = some k := by
  cases k <;> decide

theorem tag_of_lookup {name : String} {k : Kind} (found : Kind.tags.lookup name = some k) :
    name = k.tag := by
  obtain ⟨_, rfl⟩ : ∃ k', name = Kind.tag k' := by
    by_contra other
    rw [not_exists] at other
    simp [Kind.tags, List.lookup_cons, beq_false_of_ne (other _)] at found
  rw [lookup_tag] at found
  rw [Option.some.inj found]

section Objects

variable {text : String} {members others : List (Option String × Tree)} {k : Kind} {m : Control}

theorem run_object (document : Tree.documentOf text = ⟨.object members true, true⟩)
    (tag : k.IsAmong members others) : reader.run text = Value.ofText text >>= fun _ =>
      k.reader { Place.top with buffered := true } (.object others true) := by
  obtain ⟨front, back, rfl, rfl, untagged⟩ := tag
  rw [Value.ofText, Reader.run, Reader.run, document, Reader.value]
  dsimp only
  rw [reader, Reader.tagged_object untagged (lookup_tag k)]
  cases Tree.value .top (.object (front ++ (some "type", .string (some k.tag)) :: back) true) with
  | error _ => rfl
  | ok v =>
    simp only [bind, Except.bind, if_true]
    cases k.reader { Place.top with buffered := true } (.object (front ++ back) true) <;> rfl

/-- What is read from an object is of the kind whose tag stands in it. -/
theorem exists_isAmong (document : Tree.documentOf text = ⟨.object members true, true⟩)
    (read : reader.run text = .ok m) : ∃ others, m.kind.IsAmong members others := by
  have first := Reader.read_of_run read
  rw [document] at first
  obtain ⟨front, t, back, k, rfl, untagged, ⟨inner, tag⟩, body⟩ := Reader.exists_tag_of_tagged first
  obtain ⟨name, word, found⟩ := Outcome.bind_eq_ok_iff.mp tag
  have known : Kind.tags.lookup name = some k := by
    unfold Reader.variantOf at found
    split at found
    · cases found
      assumption
    · cases found
  obtain rfl := tag_of_lookup known
  have same : t = .string (some k.tag) := by
    unfold Reader.text at word
    split at word
    · cases word
      rfl
    · exact absurd (Except.ok.inj word) (by cases k <;> decide)
    · cases word
  rw [kind_of_reader body]
  exact ⟨_, front, back, by rw [same], rfl, untagged⟩

theorem kind_of_isAmong (document : Tree.documentOf text = ⟨.object members true, true⟩)
    (tag : k.IsAmong members others) (read : reader.run text = .ok m) : m.kind = k := by
  rw [run_object document tag] at read
  obtain ⟨_, _, body⟩ := Outcome.bind_eq_ok_iff.mp read
  exact kind_of_reader body

end Objects

theorem ofJson_json (m : Control) : ofJson m.json = .object
    ((some "type", .string (some m.kind.tag)) :: m.members.map fun m => (some m.1, ofJson m.2)) true := by
  rw [json, ofJson_object]
  rfl

theorem untagged_members (m : Control) : ∀ e ∈ m.members.map fun m => (some m.1, ofJson m.2),
    ∃ name, e.1 = some name ∧ name ≠ "type" := by
  rw [List.forall_mem_map]
  cases m <;> simp [members, TakenNotice.members, RestoreRequest.members, RestoreCompletion.members,
    PruneRequest.members]

theorem exact_json (m : Control) : Exact m.json := by
  have string := Tree.exact_string
  rw [json]
  apply Tree.exact_object
  cases m with
  | taken m =>
    simp only [members, TakenNotice.members, List.forall_mem_cons, string,
      m.sequenceNumbers.exact_json, m.header.exact_json, List.not_mem_nil, false_imp_iff,
      implies_true, and_true]
  | restoreRequest m => simp [members, RestoreRequest.members, string]
  | restoreCompletion m => simp [members, RestoreCompletion.members, string]
  | prune m =>
    simp [members, PruneRequest.members, string, Tree.exact_integer (fits_toNat m.upTo)]

theorem hasValue_json (m : Control) : m.json.HasValue 3 := by
  have string : ∀ s, (Json.string s).HasValue 2 := fun s => (Json.hasValue_string s).mono (by decide)
  rw [json]
  apply Json.hasValue_object
  cases m with
  | taken m =>
    have numbers := m.sequenceNumbers.hasValue_json.mono (Nat.le_succ 1)
    simp only [members, TakenNotice.members, List.forall_mem_cons, string, numbers,
      Header.hasValue_json, List.not_mem_nil, false_imp_iff, implies_true, and_true]
  | restoreRequest m => simp [members, RestoreRequest.members, string]
  | restoreCompletion m => simp [members, RestoreCompletion.members, string]
  | prune m =>
    have number := (Json.hasValue_integer (fits_toNat m.upTo)).mono (Nat.zero_le 2)
    simp [members, PruneRequest.members, string, number]

/-- A message is read from every document that says the same, as far as it is a value. -/
theorem run_restated {m : Control} (readable : m.Readable) {text : String}
    (restates : m.kind.outline.Restates m.json text) :
    reader.run text = (Value.ofText text).map fun _ => m := by
  obtain ⟨t, document, rewords⟩ := restates
  have takes := takes_members readable (show 3 < { Place.top with buffered := true }.room by decide)
  obtain ⟨part, record⟩ : ∃ part, m.kind.body = .record part := by
    cases m.kind <;> exact ⟨_, rfl⟩
  rw [ofJson_json, Kind.outline, record] at rewords
  obtain ⟨front, back, rfl, untagged, others⟩ :=
    Outline.rewords_withTag m.untagged_members rewords
  rw [record, ofJson_object] at takes
  rw [run_object document ⟨front, back, rfl, rfl, untagged⟩]
  cases Value.ofText text with
  | error _ => rfl
  | ok v => exact takes.each _ others

theorem run_render {m : Control} (readable : m.Readable) (layout : Layout) :
    reader.run (m.json.render layout) = .ok m := by
  have takes := takes_members readable (show 3 < { Place.top with buffered := true }.room by decide)
  have document := Tree.documentOf_render m.exact_json layout
  rw [ofJson_json] at document
  have tag : m.kind.IsAmong ((some "type", .string (some m.kind.tag)) ::
      m.members.map fun e => (some e.1, ofJson e.2)) (m.members.map fun e => (some e.1, ofJson e.2)) := by
    refine ⟨[], _, rfl, rfl, fun e member => ?_⟩
    obtain ⟨name, same, other⟩ := m.untagged_members e member
    rw [same]
    simpa using other
  obtain ⟨v, value⟩ := Json.ofText_render m.hasValue_json m.exact_json (by decide) layout
  rw [run_object document tag, value, ← ofJson_object]
  exact takes.each _ takes.self

end Control

/-- Scenarios and control messages are read from their own text. A scenario is read from every text
that says the same as its own document; a message is as well, if the text can be read as a value, and
otherwise the fault is the one of the value. Of the members of an object the tag alone decides which
kind of message is read, wherever it stands. -/
theorem restated_read :
    (∀ s : Scenario, s.Readable →
      (∀ layout, Scenario.reader.run (s.json.render layout) = .ok s) ∧
      ∀ text, Scenario.outline.Restates s.json text → Scenario.reader.run text = .ok s) ∧
    (∀ m : Control, m.Readable →
      (∀ layout, Control.reader.run (m.json.render layout) = .ok m) ∧
      ∀ text, m.kind.outline.Restates m.json text →
        Control.reader.run text = (Value.ofText text).map fun _ => m) ∧
    ∀ text members, Tree.documentOf text = ⟨.object members true, true⟩ →
      (∀ k others, Control.Kind.IsAmong k members others →
        (Control.reader.run text = Value.ofText text >>= fun _ =>
          k.reader { Place.top with buffered := true } (.object others true)) ∧
        ∀ m, Control.reader.run text = .ok m → m.kind = k) ∧
      ∀ m, Control.reader.run text = .ok m → ∃ others, m.kind.IsAmong members others := by
  refine ⟨fun s readable => ?_, fun m readable => ?_, fun text members document => ?_⟩
  · have takes := Scenario.takes_json readable (show 4 < Place.top.room by decide)
    exact ⟨fun layout => takes.run_eq_ok (takes.restates_render s.exact_json layout),
      fun _ restates => takes.run_eq_ok restates⟩
  · exact ⟨Control.run_render readable, fun _ => Control.run_restated readable⟩
  · refine ⟨fun k others tag => ⟨Control.run_object document tag, fun _ => ?_⟩, fun _ => ?_⟩
    · exact Control.kind_of_isAmong document tag
    · exact Control.exists_isAmong document

/-! ## Documents in another order -/

section Examples

open Store (nested firstOfSink)

/-- A header with its id behind the other members and one member more. -/
def shuffledHeader : Json := .object [
  ("instance_name", .string firstOfSink.owner),
  ("created_at", .string firstOfSink.createdAt.toString),
  ("dependencies", Header.dependenciesJson firstOfSink.dependencies),
  ("type", .string "window"),
  ("id", .string firstOfSink.id.toString)]

theorem rewords_shuffledHeader :
    Header.outline.Rewords (ofJson firstOfSink.json) (ofJson shuffledHeader) := by
  have dependencies := (Header.takes_dependenciesTree firstOfSink.dependencies
    (show 1 < Place.top.room by decide)).self
  rw [← Header.ofJson_dependencies] at dependencies
  refine ⟨_, _, [(some "type", .string (some "window"))], _, ofJson_object _, ofJson_object _,
    .cons ⟨rfl, rfl⟩ (.cons ⟨rfl, rfl⟩ (.cons ⟨rfl, rfl⟩ (.cons ⟨rfl, dependencies⟩ .nil))), ?_, ?_⟩
  · rw [List.forall_mem_singleton]
    exact ⟨"type", rfl, rfl, rfl⟩
  · exact (List.perm_append_comm : ([_, _, _, _] ++ [_]).Perm ([_] ++ [_, _, _, _]))

theorem exact_shuffledHeader : Exact shuffledHeader := by
  apply Tree.exact_object
  simp only [List.forall_mem_cons, Tree.exact_string, Header.exact_dependencies, List.not_mem_nil,
    false_imp_iff, implies_true, and_true]

theorem hasValue_shuffledHeader : shuffledHeader.HasValue 2 := by
  have string : ∀ s, (Json.string s).HasValue 1 := fun s => (Json.hasValue_string s).mono (by decide)
  apply Json.hasValue_object
  simp only [List.forall_mem_cons, string, Header.hasValue_dependencies, List.not_mem_nil,
    false_imp_iff, implies_true, and_true]

/-- One checkpoint of a sink that failed. -/
def sinkScenario : Scenario := ⟨.empty, [firstOfSink], ["sink"]⟩

def shuffledScenario : Json := .object [
  ("checkpoints", .array [shuffledHeader]),
  ("failed", .array [.string "sink"]),
  ("note", (nested 200).json),
  ("graph", Graph.empty.json)]

theorem restates_shuffledScenario :
    Scenario.outline.Restates sinkScenario.json (shuffledScenario.render .indented) := by
  have scanned : Tree.ScannedTo shuffledScenario (.object [
      (some "checkpoints", .array [ofJson shuffledHeader] true),
      (some "failed", .array [.string (some "sink")] true),
      (some "note", Tree.reread (nested 200).json),
      (some "graph", ofJson Graph.empty.json)] true) :=
    Tree.scannedTo_object (.cons ⟨rfl, Tree.scannedTo_array (.cons exact_shuffledHeader .nil)⟩
      (.cons ⟨rfl, Tree.scannedTo_array (.cons (Tree.scannedTo_string _) .nil)⟩
      (.cons ⟨rfl, Tree.scannedTo_reread (nested 200).canonical⟩
      (.cons ⟨rfl, Graph.empty.exact_json⟩ .nil))))
  have graph := (Graph.empty.takes_json (show 3 < Place.top.room by decide)).self
  refine ⟨_, Tree.documentOf_render scanned _, _, [(some "graph", ofJson Graph.empty.json),
    (some "checkpoints", .array [ofJson shuffledHeader] true),
    (some "failed", .array [.string (some "sink")] true)],
    [(some "note", Tree.reread (nested 200).json)], _, sinkScenario.ofJson_json, rfl,
    .cons ⟨rfl, graph⟩ (.cons ⟨rfl, ⟨_, _, rfl, rfl, .cons rewords_shuffledHeader .nil⟩⟩
    (.cons ⟨rfl, ⟨_, _, rfl, rfl, .cons rfl .nil⟩⟩ .nil)), ?_, ?_⟩
  · rw [List.forall_mem_singleton]
    exact ⟨"note", rfl, rfl, Tree.isWhole_reread _⟩
  · exact (List.perm_append_comm : ([_, _, _] ++ [_]).Perm ([_] ++ [_, _, _]))

def sinkNotice : TakenNotice := ⟨firstOfSink.id, "sink", ∅, firstOfSink⟩

def shuffledNotice : Json := .object [
  ("checkpoint_id", .string firstOfSink.id.toString),
  ("origin_instance", .string "sink"),
  ("sequence_numbers", SequenceNumbers.json ∅),
  ("metadata", shuffledHeader),
  ("note", .string "first"),
  ("type", .string "checkpoint_taken")]

theorem exact_shuffledNotice : Exact shuffledNotice := by
  apply Tree.exact_object
  simp only [List.forall_mem_cons, Tree.exact_string, SequenceNumbers.exact_json, exact_shuffledHeader,
    List.not_mem_nil, false_imp_iff, implies_true, and_true]

theorem hasValue_shuffledNotice : shuffledNotice.HasValue 3 := by
  have string : ∀ s, (Json.string s).HasValue 2 := fun s => (Json.hasValue_string s).mono (by decide)
  have numbers := (SequenceNumbers.hasValue_json ∅).mono (Nat.le_succ 1)
  apply Json.hasValue_object
  simp only [List.forall_mem_cons, string, numbers, hasValue_shuffledHeader, List.not_mem_nil,
    false_imp_iff, implies_true, and_true]

theorem restates_shuffledNotice : (Control.taken sinkNotice).kind.outline.Restates
    (Control.taken sinkNotice).json (shuffledNotice.render .compact) := by
  have numbers := ((∅ : SequenceNumbers).takes_json (show 1 < Place.top.room by decide)).self
  refine ⟨_, Tree.documentOf_render exact_shuffledNotice _, _, [
    (some "type", .string (some "checkpoint_taken")),
    (some "checkpoint_id", .string (some firstOfSink.id.toString)),
    (some "origin_instance", .string (some "sink")),
    (some "sequence_numbers", ofJson (SequenceNumbers.json ∅)),
    (some "metadata", ofJson shuffledHeader)],
    [(some "note", .string (some "first"))], _, ofJson_object _, ofJson_object _,
    .cons ⟨rfl, rfl⟩ (.cons ⟨rfl, rfl⟩ (.cons ⟨rfl, rfl⟩ (.cons ⟨rfl, numbers⟩
    (.cons ⟨rfl, rewords_shuffledHeader⟩ .nil)))), ?_, ?_⟩
  · rw [List.forall_mem_singleton]
    exact ⟨"note", rfl, rfl, rfl⟩
  · exact (List.perm_append_comm : ([_, _, _, _, _] ++ [_]).Perm ([_] ++ [_, _, _, _, _]))

/-- Members of a record and the tag of a message may stand anywhere, and other ones beside them. -/
theorem restated_read_shuffled :
    (sinkScenario.Readable ∧
      Scenario.outline.Restates sinkScenario.json (shuffledScenario.render .indented) ∧
      Scenario.reader.run (shuffledScenario.render .indented) = .ok sinkScenario) ∧
    (Control.taken sinkNotice).Readable ∧
      (Control.taken sinkNotice).kind.outline.Restates (Control.taken sinkNotice).json
        (shuffledNotice.render .compact) ∧
      Control.reader.run (shuffledNotice.render .compact) = .ok (.taken sinkNotice) ∧
      ∃ members others, Tree.documentOf (shuffledNotice.render .compact) =
        ⟨.object members true, true⟩ ∧ Control.Kind.taken.IsAmong members others := by
  obtain ⟨scenarios, messages, tags⟩ := restated_read
  have readable : ∃ text, Instant.ofString? text = some firstOfSink.createdAt :=
    ⟨"1970-01-01T00:00:00.000001Z", by decide +kernel⟩
  have scenario : sinkScenario.Readable := List.forall_mem_singleton.mpr readable
  have message : (Control.taken sinkNotice).Readable := readable
  obtain ⟨v, value⟩ := Json.ofText_render hasValue_shuffledNotice exact_shuffledNotice (by decide)
    .compact
  have read := (messages _ message).2 _ restates_shuffledNotice
  rw [value] at read
  have document := Tree.documentOf_render exact_shuffledNotice .compact
  rw [shuffledNotice, ofJson_object, ← shuffledNotice] at document
  obtain ⟨others, tag⟩ := (tags _ _ document).2 _ read
  exact ⟨⟨scenario, restates_shuffledScenario, (scenarios _ scenario).2 _ restates_shuffledScenario⟩,
    message, restates_shuffledNotice, read, _, others, document, tag⟩

/-! ## Deep documents -/

def nilRequest : Control := .restoreRequest ⟨.nil⟩

def deepRequest : Json := .object [
  ("type", .string "restore_request"),
  ("checkpoint_id", .string CheckpointId.nil.toString),
  ("more", (nested 127).json)]

def deepMembers : List (Option String × Tree) := [
  (some "type", .string (some "restore_request")),
  (some "checkpoint_id", .string (some CheckpointId.nil.toString)),
  (some "more", Tree.reread (nested 127).json)]

theorem documentOf_deepRequest :
    Tree.documentOf (deepRequest.render .compact) = ⟨.object deepMembers true, true⟩ :=
  Tree.documentOf_render (Tree.scannedTo_object (.cons ⟨rfl, Tree.scannedTo_string _⟩
    (.cons ⟨rfl, Tree.scannedTo_string _⟩
    (.cons ⟨rfl, Tree.scannedTo_reread (nested 127).canonical⟩ .nil)))) .compact

theorem restates_deepRequest :
    nilRequest.kind.outline.Restates nilRequest.json (deepRequest.render .compact) := by
  refine ⟨_, documentOf_deepRequest, _, [(some "type", .string (some "restore_request")),
    (some "checkpoint_id", .string (some CheckpointId.nil.toString))],
    [(some "more", Tree.reread (nested 127).json)], _, ofJson_object _, rfl,
    .cons ⟨rfl, rfl⟩ (.cons ⟨rfl, rfl⟩ .nil), ?_, .refl _⟩
  rw [List.forall_mem_singleton]
  exact ⟨"more", rfl, rfl, Tree.isWhole_reread _⟩

theorem ofText_deepRequest : Value.ofText (deepRequest.render .compact) = .error .syntaxError := by
  -- 127 levels inside of the object are one more than may be entered
  have deep : (Tree.reread (nested 127).json).value { Place.top with room := 127 } =
      .error .syntaxError :=
    (Tree.reads_value (nested 127).canonical _).fails fun legible =>
      absurd legible.depth (by decide +kernel)
  have refused : Tree.value .top (.object deepMembers true) = .error .syntaxError := by
    rw [Tree.value, Place.enter_eq (by decide)]
    simp only [deepMembers, Tree.valueMembers, Tree.value, bind, Except.bind]
    rw [show Place.top.room - 1 = 127 from rfl, deep]
  rw [Value.ofText, Reader.run, documentOf_deepRequest, Reader.value, refused]
  rfl

/-- Not every text that says the same as a message is read: a member that nobody asks for may have
more levels than can be kept until the tag is known. -/
theorem not_read_deepRequest :
    (nilRequest.Readable ∧
      nilRequest.kind.outline.Restates nilRequest.json (deepRequest.render .compact) ∧
      Control.reader.run (deepRequest.render .compact) = .error .syntaxError) ∧
    ¬ ∀ m : Control, m.Readable → ∀ text, m.kind.outline.Restates m.json text →
      Control.reader.run text = .ok m := by
  have refused : Control.reader.run (deepRequest.render .compact) = .error .syntaxError := by
    rw [Control.run_restated (m := nilRequest) trivial restates_deepRequest, ofText_deepRequest]
    rfl
  refine ⟨⟨trivial, restates_deepRequest, refused⟩, fun every => ?_⟩
  have read := every nilRequest trivial _ restates_deepRequest
  rw [refused] at read
  cases read

end Examples

end Rollback
