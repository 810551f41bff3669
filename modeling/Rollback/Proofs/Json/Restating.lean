import Rollback.Proofs.Json.Values
import Rollback.Yaml.Document

/-!
# Documents that say the same

The members of a record may come in any order and among members that nobody asks for. The outline of a
document says where its records are: `Outline.Restates` relates a document to the texts that say the
same in this sense. `Takes` says that a reader makes the same of all of them, and it is composed from
the parts of a document: lists (`takes_list`), maps (`takes_nameMap`) and records (`Shape.takes_reader`).
-/

namespace Rollback

open Yaml (Outline)
open Rollback.Tree (ScannedTo)

variable {α β : Type}

/-! ## Documents -/

theorem Place.enter_eq {place : Place} (room : 1 < place.room) :
    place.enter = .ok { place with room := place.room - 1 } :=
  place.reads_enter.eq_ok room fun _ same => same

namespace Tree

theorem ofJson_array (items : List Json) :
    ofJson (.array items) = array (items.map ofJson) true := by
  have each : ∀ items, ofItems items = items.map ofJson := by
    intro items
    induction items with
    | nil => rfl
    | cons j rest ih => rw [ofItems, List.map_cons, ih]
  rw [ofJson, each]

theorem ofJson_object (members : List (String × Json)) :
    ofJson (.object members) = object (members.map fun m => (some m.1, ofJson m.2)) true := by
  have each : ∀ members, ofMembers members = members.map fun m => (some m.1, ofJson m.2) := by
    intro members
    induction members with
    | nil => rfl
    | cons m rest ih => rw [ofMembers, List.map_cons, ih]
  rw [ofJson, each]

/-- The text of the document is scanned to nothing but the document. -/
def Exact (j : Json) : Prop := ScannedTo j (ofJson j)

theorem exact_string (s : String) : Exact (.string s) := by
  rw [Exact, ofJson]
  exact scannedTo_string s

theorem exact_integer {n : Int} (fits : Json.fits n = true) : Exact (.integer n) := by
  rw [Exact, ofJson]
  exact scannedTo_integer fits

theorem exact_array {items : List Json} (each : ∀ j ∈ items, Exact j) : Exact (.array items) := by
  rw [Exact, ofJson_array]
  apply scannedTo_array
  rw [List.forall₂_map_right_iff, List.forall₂_same]
  exact each

theorem exact_object {members : List (String × Json)} (each : ∀ m ∈ members, Exact m.2) :
    Exact (.object members) := by
  rw [Exact, ofJson_object]
  apply scannedTo_object
  rw [List.forall₂_map_right_iff, List.forall₂_same]
  exact fun m member => ⟨rfl, each m member⟩

end Tree

/-- The document can be read as a value if there is room for more than so many levels. -/
def Json.HasValue (levels : Nat) (j : Json) : Prop :=
  ∀ place : Place, levels < place.room → ∃ v, (Tree.ofJson j).value place = .ok v

namespace Json

theorem HasValue.mono {levels more : Nat} {j : Json} (value : j.HasValue levels) (le : levels ≤ more) :
    j.HasValue more := fun place room => value place (Nat.lt_of_le_of_lt le room)

theorem hasValue_string (s : String) : (string s).HasValue 0 := fun _ _ => ⟨.string s, rfl⟩

theorem hasValue_integer {n : Int} (fits : Json.fits n = true) : (integer n).HasValue 0 :=
  fun place _ => ⟨_, Tree.value_integer fits place⟩

theorem hasValue_object {levels : Nat} {members : List (String × Json)}
    (each : ∀ m ∈ members, m.2.HasValue levels) : (object members).HasValue (levels + 1) := by
  intro place room
  have each : ∀ m ∈ members, Reads ((Tree.ofJson m.2).value { place with room := place.room - 1 }) True
      fun _ => True := by
    intro m member
    obtain ⟨v, read⟩ := each m member { place with room := place.room - 1 } (by dsimp only; omega)
    exact .of_eq read trivial
  have inside := @Reader.reads_members _ _ Reader.value Tree.ofJson (fun _ => True) (fun _ _ => True)
    { place with room := place.room - 1 } members each ∅
  obtain ⟨found, read, _⟩ := inside.succeeds fun _ _ => trivial
  rw [Tree.ofJson_object, Tree.value, Place.enter_eq (by omega)]
  simp only [Tree.valueMembers_eq, bind, Except.bind, read, Tree.finish, if_true]
  exact ⟨_, rfl⟩

theorem ofText_render {levels : Nat} {j : Json} (value : j.HasValue levels) (exact : Tree.Exact j)
    (few : levels < 128) (layout : Layout) : ∃ v, Value.ofText (j.render layout) = .ok v := by
  obtain ⟨v, read⟩ := value .top few
  refine ⟨v, ?_⟩
  rw [Value.ofText, Reader.run, Tree.documentOf_render exact layout, Reader.value]
  simp only [read, bind, Except.bind, if_true]

end Json

/-! ## Restated documents -/

namespace Yaml.Outline

/-- The second tree is the first one, but for the order of members and for more members in the
records, all of it there and under names that no field has. -/
def Rewords : Outline → Tree → Tree → Prop
  | .ignored, t, t' | .text, t, t' => t' = t
  | .list item, t, t' => ∃ ts ts', t = .array ts true ∧ t' = .array ts' true ∧
      List.Forall₂ (Rewords item) ts ts'
  | .map item, t, t' => ∃ ms kept ms', t = .object ms true ∧ t' = .object ms' true ∧
      List.Forall₂ (fun m m' => m'.1 = m.1 ∧ Rewords item m.2 m'.2) ms kept ∧ ms'.Perm kept
  | .record part, t, t' => ∃ ms kept more ms', t = .object ms true ∧ t' = .object ms' true ∧
      List.Forall₂ (fun m m' => m'.1 = m.1 ∧ Rewords (part (m.1.getD "")) m.2 m'.2) ms kept ∧
      (∀ m ∈ more, ∃ name, m.1 = some name ∧ part name = .ignored ∧ m.2.isWhole = true) ∧
      ms'.Perm (kept ++ more)

/-- The text is a document that says the same as the given one. -/
def Restates (outline : Outline) (j : Json) (text : String) : Prop :=
  ∃ t, Tree.documentOf text = ⟨t, true⟩ ∧ outline.Rewords (Tree.ofJson j) t

end Yaml.Outline

/-! ## Readers -/

/-- A reader makes the same of every tree that says the same. -/
structure Takes (read : Reader α) (place : Place) (outline : Outline) (t : Tree) (a : α) : Prop where
  self : outline.Rewords t t
  each : ∀ t', outline.Rewords t t' → read place t' = .ok a

namespace Takes

variable {read : Reader α} {place : Place} {outline : Outline} {t : Tree} {a : α}

theorem map {b : β} {f : α → β} (takes : Takes read place outline t a) (same : f a = b) :
    Takes (read.map f) place outline t b :=
  ⟨takes.self, fun t' rewords => Reader.map_eq_ok_iff.mpr ⟨a, takes.each t' rewords, same⟩⟩

theorem of_text (same : read place t = .ok a) : Takes read place .text t a := by
  refine ⟨rfl, ?_⟩
  rintro _ rfl
  exact same

theorem eq_ok (takes : Takes read place outline t a) : read place t = .ok a :=
  takes.each t takes.self

/-- A text that says the same is read to the same. -/
theorem run_eq_ok {j : Json} (takes : Takes read .top outline (Tree.ofJson j) a) {text : String}
    (restates : outline.Restates j text) : read.run text = .ok a := by
  obtain ⟨t', document, rewords⟩ := restates
  rw [Reader.run, document, takes.each t' rewords]
  rfl

theorem restates_render {j : Json} (takes : Takes read place outline (Tree.ofJson j) a)
    (exact : Tree.Exact j) (layout : Layout) : outline.Restates j (j.render layout) :=
  ⟨_, Tree.documentOf_render exact layout, takes.self⟩

end Takes

section Collections

variable {read : Reader α} {place : Place} {item : Outline}

theorem Reader.items_eq_ok {trees : List Tree} {as : List α}
    (each : List.Forall₂ (fun t a => read place t = .ok a) trees as) :
    Reader.items read place trees = .ok as := by
  induction each with
  | nil => rfl
  | cons first _ ih =>
    rw [Reader.items, first, ih]
    rfl

theorem takes_list (tree : α → Tree) {written : List α} (room : 1 < place.room)
    (each : ∀ a ∈ written, Takes read { place with room := place.room - 1 } item (tree a) a) :
    Takes (Reader.list read) place (.list item) (.array (written.map tree) true) written := by
  constructor
  · refine ⟨_, _, rfl, rfl, ?_⟩
    rw [List.forall₂_map_left_iff, List.forall₂_map_right_iff, List.forall₂_same]
    exact fun a member => (each a member).self
  · rintro _ ⟨_, trees, same, rfl, all⟩
    cases same
    rw [List.forall₂_map_left_iff] at all
    have items : Reader.items read { place with room := place.room - 1 } trees = .ok written := by
      apply Reader.items_eq_ok
      refine (((List.forall₂_and_left _ _).mpr ⟨each, all⟩).imp ?_).flip
      exact fun a t' both => both.1.each t' both.2
    simp only [Reader.list, Place.enter_eq room, items, Tree.finish, if_true, bind, Except.bind]

theorem Reader.members_eq_ok {members : List (Option String × Tree)} {entries : List (String × α)}
    (each : List.Forall₂ (fun m e => m.1 = some e.1 ∧ read place m.2 = .ok e.2) members entries)
    (seen : NameMap α) :
    Reader.members read place seen members = .ok (seen.insertMany entries) := by
  induction each generalizing seen with
  | nil => rfl
  | @cons m e _ _ first _ ih =>
    obtain ⟨_, t⟩ := m
    obtain ⟨rfl, same⟩ := first
    rw [Reader.members, same, Std.ExtTreeMap.insertMany_cons]
    exact ih (seen.insert e.1 e.2)

theorem takes_nameMap (tree : α → Tree) {m : NameMap α} (room : 1 < place.room)
    (each : ∀ a, Takes read { place with room := place.room - 1 } item (tree a) a) :
    Takes (Reader.nameMap read) place (.map item)
      (.object (m.toList.map fun e => (some e.1, tree e.2)) true) m := by
  constructor
  · refine ⟨_, _, _, rfl, rfl, ?_, .refl _⟩
    rw [List.forall₂_map_left_iff, List.forall₂_map_right_iff, List.forall₂_same]
    exact fun e _ => ⟨rfl, (each e.2).self⟩
  · rintro _ ⟨_, kept, members, same, rfl, all, order⟩
    cases same
    rw [List.forall₂_map_left_iff] at all
    have found : List.Forall₂ (fun m e => m.1 = some e.1 ∧
        read { place with room := place.room - 1 } m.2 = .ok e.2) kept m.toList :=
      (all.imp fun e k both => ⟨both.1, (each e.2).each k.2 both.2⟩).flip
    -- the entries in the order of the text are those of the map, each name once
    obtain ⟨entries, read, listed⟩ := List.perm_comp_forall₂ order found
    rw [Reader.nameMap, Place.enter_eq room]
    simp only [Reader.members_eq_ok read, Tree.finish, if_true, bind, Except.bind]
    rw [← Std.ExtTreeMap.ofList_eq_insertMany_empty, NameMap.ofList_of_perm listed]

end Collections

/-! ## Records -/

namespace Shape

variable {shape : Shape} {place : Place} {members : List (Option String × Tree)} {r : shape.Record}

/-- The fields that members are named for. -/
def fieldsOf (shape : Shape) (members : List (Option String × Tree)) : List shape.Field :=
  members.filterMap fun m => m.1.bind shape.ofName

theorem fieldsOf_cons (name : String) (t : Tree) (members : List (Option String × Tree)) :
    shape.fieldsOf ((some name, t) :: members) =
      (shape.ofName name).toList ++ shape.fieldsOf members := by
  rw [fieldsOf, List.filterMap_cons, Option.bind_some]
  cases shape.ofName name <;> rfl

theorem fieldsOf_append (front back : List (Option String × Tree)) :
    shape.fieldsOf (front ++ back) = shape.fieldsOf front ++ shape.fieldsOf back :=
  List.filterMap_append

theorem fieldsOf_perm {members' : List (Option String × Tree)} (order : members.Perm members') :
    (shape.fieldsOf members).Perm (shape.fieldsOf members') := order.filterMap _

/-- The member is what a field holds, or it is passed over. -/
def Belongs (place : Place) (r : shape.Record) (m : Option String × Tree) : Prop :=
  ∃ name, m.1 = some name ∧
    match shape.ofName name with
    | some f => shape.read f place m.2 = .ok (r f)
    | none => m.2.isWhole = true

theorem readMembers_eq_ok (belongs : ∀ m ∈ members, Belongs place r m)
    (distinct : (shape.fieldsOf members).Nodup) {p : shape.Partial}
    (new : ∀ f ∈ shape.fieldsOf members, p f = none) : ∃ q, readMembers place p members = .ok q ∧
      ∀ f, (f ∈ shape.fieldsOf members → q f = some (r f)) ∧ (f ∉ shape.fieldsOf members → q f = p f) := by
  induction members generalizing p with
  | nil => exact ⟨p, rfl, fun _ => ⟨fun never => absurd never List.not_mem_nil, fun _ => rfl⟩⟩
  | cons m rest ih =>
    obtain ⟨first, others⟩ := List.forall_mem_cons.mp belongs
    obtain ⟨_, t⟩ := m
    obtain ⟨name, rfl, held⟩ := first
    cases named : shape.ofName name with
    | none =>
      simp only [fieldsOf_cons, named, Option.toList_none, List.nil_append] at distinct new ⊢
      rw [named] at held
      have passed : t.ignore = .ok () := if_pos held
      obtain ⟨q, read, met⟩ := ih others distinct new
      refine ⟨q, ?_, met⟩
      rw [readMembers]
      simp only [named, passed, bind, Except.bind, read]
    | some f =>
      simp only [fieldsOf_cons, named, Option.toList_some, List.singleton_append] at distinct new ⊢
      rw [named] at held
      obtain ⟨fresh, distinct⟩ := List.nodup_cons.mp distinct
      obtain ⟨unmet, new⟩ := List.forall_mem_cons.mp new
      have untouched : ∀ g ∈ shape.fieldsOf rest, p.set f (r f) g = none := by
        intro g member
        rw [Partial.set_of_ne p (by rintro rfl; exact fresh member), new g member]
      obtain ⟨q, read, met⟩ := ih others distinct untouched
      refine ⟨q, ?_, fun g => ?_⟩
      · rw [readMembers]
        simp only [named, unmet, Option.isSome_none, Bool.false_eq_true, if_false, held, bind,
          Except.bind, read]
      · by_cases same : g = f
        · subst same
          have kept : q g = some (r g) := by rw [(met g).2 fresh, Partial.set_self]
          exact ⟨fun _ => kept, fun none => absurd List.mem_cons_self none⟩
        · rw [List.mem_cons, or_iff_right same]
          refine ⟨(met g).1, fun other => ?_⟩
          rw [(met g).2 other, Partial.set_of_ne p same]

/-- A record is read from its members in any order and among others. -/
theorem reader_eq_ok (room : 1 < place.room)
    (belongs : ∀ m ∈ members, Belongs { place with room := place.room - 1 } r m)
    (order : (shape.fieldsOf members).Perm shape.fields) (distinct : shape.fields.Nodup) :
    shape.reader place (.object members true) = .ok r := by
  have all : ∀ f, f ∈ shape.fieldsOf members :=
    fun f => order.mem_iff.mpr (shape.complete f)
  obtain ⟨q, read, met⟩ := readMembers_eq_ok belongs (order.nodup_iff.mpr distinct)
    (p := Partial.empty) fun _ _ => rfl
  obtain ⟨r', whole, same⟩ := @exists_complete shape (fun f a => a = r f) q
    fun f => ⟨r f, (met f).1 (all f), rfl⟩
  rw [reader, Place.enter_eq room]
  simp only [read, Tree.finish, if_true, bind, Except.bind, whole]
  rw [funext same]

/-- The members that hold the fields one after the other. -/
theorem belongs_of_held (named : ∀ f, shape.ofName (shape.name f) = some f)
    {fields : List shape.Field} (held : List.Forall₂ (fun f m => m.1 = some (shape.name f) ∧
      shape.read f place m.2 = .ok (r f)) fields members) :
    shape.fieldsOf members = fields ∧ ∀ m ∈ members, Belongs place r m := by
  induction held with
  | nil => exact ⟨rfl, by simp⟩
  | @cons f m _ _ first _ ih =>
    obtain ⟨fields, belongs⟩ := ih
    obtain ⟨_, t⟩ := m
    obtain ⟨rfl, read⟩ := first
    refine ⟨?_, List.forall_mem_cons.mpr ⟨⟨_, rfl, ?_⟩, belongs⟩⟩
    · rw [fieldsOf_cons, named, fields]
      rfl
    · rw [named]
      exact read

/-- Members that no field is named for. -/
theorem belongs_of_foreign (foreign : ∀ m ∈ members, ∃ name, m.1 = some name ∧
      shape.ofName name = none ∧ m.2.isWhole = true) :
    shape.fieldsOf members = [] ∧ ∀ m ∈ members, Belongs place r m := by
  refine ⟨?_, fun m member => ?_⟩
  · rw [fieldsOf, List.filterMap_eq_nil_iff]
    intro m member
    obtain ⟨name, same, none, _⟩ := foreign m member
    rw [same, Option.bind_some, none]
  · obtain ⟨name, same, none, whole⟩ := foreign m member
    exact ⟨name, same, by rwa [none]⟩

variable {part : shape.Field → Outline} {tree : shape.Field → Tree}

/-- Where every field is looked at, a member that is not is none of them. -/
theorem ofName_of_ignored (asked : ∀ f, part f ≠ .ignored) {name : String}
    (ignored : ((shape.ofName name).map part).getD .ignored = .ignored) :
    shape.ofName name = none := by
  cases field : shape.ofName name with
  | none => rfl
  | some f =>
    rw [field, Option.map_some, Option.getD_some] at ignored
    exact absurd ignored (asked f)

theorem takes_reader (named : ∀ f, shape.ofName (shape.name f) = some f)
    (distinct : shape.fields.Nodup) (asked : ∀ f, part f ≠ .ignored) (room : 1 < place.room)
    (each : ∀ f, Takes (shape.read f) { place with room := place.room - 1 } (part f) (tree f) (r f)) :
    Takes shape.reader place (.ofShape shape part)
      (.object (shape.fields.map fun f => (some (shape.name f), tree f)) true) r := by
  have ofField : ∀ f, ((shape.ofName (shape.name f)).map part).getD .ignored = part f := by
    intro f
    rw [named, Option.map_some, Option.getD_some]
  constructor
  · refine ⟨_, _, [], _, rfl, rfl, ?_, by simp, .of_eq (List.append_nil _).symm⟩
    rw [List.forall₂_map_left_iff, List.forall₂_map_right_iff, List.forall₂_same]
    intro f _
    simp only [Option.getD_some, ofField]
    exact ⟨trivial, (each f).self⟩
  · rintro _ ⟨_, kept, more, members, same, rfl, all, others, order⟩
    cases same
    rw [List.forall₂_map_left_iff] at all
    have held : List.Forall₂ (fun f m => m.1 = some (shape.name f) ∧
        shape.read f { place with room := place.room - 1 } m.2 = .ok (r f)) shape.fields kept := by
      refine all.imp fun f m both => ⟨both.1, (each f).each m.2 ?_⟩
      simpa only [Option.getD_some, ofField] using both.2
    have foreign : ∀ m ∈ more, ∃ name, m.1 = some name ∧ shape.ofName name = none ∧
        m.2.isWhole = true := by
      intro m member
      obtain ⟨name, same, ignored, whole⟩ := others m member
      exact ⟨name, same, ofName_of_ignored asked ignored, whole⟩
    obtain ⟨keptFields, keptBelong⟩ := belongs_of_held named held
    obtain ⟨moreFields, moreBelong⟩ : shape.fieldsOf more = [] ∧
        ∀ m ∈ more, Belongs { place with room := place.room - 1 } r m := belongs_of_foreign foreign
    refine reader_eq_ok room (fun m member => ?_) ?_ distinct
    · obtain here | there := List.mem_append.mp (order.mem_iff.mp member)
      · exact keptBelong m here
      · exact moreBelong m there
    · have found := @fieldsOf_perm shape _ _ order
      rwa [fieldsOf_append, keptFields, moreFields, List.append_nil] at found

theorem takes_only {name : String} {read : Reader α} {outline : Outline} {t : Tree} {a : α}
    (asked : outline ≠ .ignored) (room : 1 < place.room)
    (takes : Takes read { place with room := place.room - 1 } outline t a) :
    Takes (only name read) place (.ofShape (single name read) fun _ => outline)
      (.object [(some name, t)] true) a :=
  (@takes_reader (single name read) place (fun _ => a) (fun _ => outline) (fun _ => t)
    (fun _ => by simp [ofName, single]; rfl) (by simp [single]) (fun _ => asked) room
    fun _ => takes).map rfl

end Shape

end Rollback
