import Rollback.Proofs.Json.Documents
import Rollback.Proofs.Json.Reading
import Rollback.Proofs.NameMap

/-!
# Written values are read back

A written value can be read where there is room for its levels and no fraction of it is read to a
number that is too large (`Json.Legible`). It is read to itself if it has no fractions at all
(`reads_value`).
-/

namespace Rollback

namespace Json

theorem depth_array_le {items : List Json} {n : Nat} :
    (array items).depth ≤ n + 1 ↔ ∀ j ∈ items, j.depth ≤ n := by
  rw [depth, Nat.add_le_add_iff_right]
  induction items with
  | nil => simp [depthOfItems]
  | cons j rest ih => simp [depthOfItems, ih]

theorem depth_object_le {members : List (String × Json)} {n : Nat} :
    (object members).depth ≤ n + 1 ↔ ∀ m ∈ members, m.2.depth ≤ n := by
  rw [depth, Nat.add_le_add_iff_right]
  induction members with
  | nil => simp [depthOfMembers]
  | cons m rest ih =>
    obtain ⟨name, j⟩ := m
    simp [depthOfMembers, ih]

theorem fractions_array_nil {items : List Json} :
    (array items).fractions = [] ↔ ∀ j ∈ items, j.fractions = [] := by
  simp only [List.eq_nil_iff_forall_not_mem, mem_fractions_array]
  exact ⟨fun none j member x number => none x ⟨j, member, number⟩,
    fun none x ⟨j, member, number⟩ => none j member x number⟩

theorem fractions_object_nil {members : List (String × Json)} :
    (object members).fractions = [] ↔ ∀ m ∈ members, m.2.fractions = [] := by
  simp only [List.eq_nil_iff_forall_not_mem, mem_fractions_object]
  exact ⟨fun none m member x number => none x ⟨m, member, number⟩,
    fun none x ⟨m, member, number⟩ => none m member x number⟩

/-- A document that has no fractions became this value. -/
def Kept (j : Json) (v : Value) : Prop := j.fractions = [] → v.json = j

/-- There is room for the levels of the document, and each fraction is read as a number. -/
structure Legible (room : Nat) (j : Json) : Prop where
  depth : j.depth = 0 ∨ j.depth < room
  fractions : ∀ x ∈ j.fractions, Tree.ofDouble x ≠ .overflow

theorem legible_flat {room : Nat} {j : Json} (flat : j.depth = 0) (whole : j.fractions = []) :
    j.Legible room ↔ True :=
  iff_true_intro ⟨Or.inl flat, by simp [whole]⟩

/-- One level takes one from the room of its parts. -/
theorem legible_iff_parts {room : Nat} {j : Json} {parts : List Json} (some : 0 < j.depth)
    (depth : ∀ n, j.depth ≤ n + 1 ↔ ∀ part ∈ parts, part.depth ≤ n)
    (fractions : ∀ x, x ∈ j.fractions ↔ ∃ part ∈ parts, x ∈ part.fractions) :
    j.Legible room ↔ 1 < room ∧ ∀ part ∈ parts, part.Legible (room - 1) := by
  constructor
  · rintro ⟨level, numbers⟩
    have enough : 1 < room ∧ j.depth ≤ room - 2 + 1 := by omega
    refine ⟨enough.1, fun part member => ⟨?_, ?_⟩⟩
    · have below := (depth _).mp enough.2 part member
      omega
    · exact fun x number => numbers x ((fractions x).mpr ⟨part, member, number⟩)
  · rintro ⟨level, each⟩
    refine ⟨Or.inr ?_, fun x number => ?_⟩
    · have below : ∀ part ∈ parts, part.depth ≤ room - 2 := by
        intro part member
        have inside := (each part member).depth
        omega
      have within := (depth _).mpr below
      omega
    · obtain ⟨part, member, number⟩ := (fractions x).mp number
      exact (each part member).fractions x number

theorem legible_array {room : Nat} {items : List Json} :
    (array items).Legible room ↔ 1 < room ∧ ∀ j ∈ items, j.Legible (room - 1) :=
  legible_iff_parts (by rw [depth]; omega) (fun _ => depth_array_le) fun _ => mem_fractions_array

theorem legible_object {room : Nat} {members : List (String × Json)} :
    (object members).Legible room ↔ 1 < room ∧ ∀ m ∈ members, m.2.Legible (room - 1) := by
  have parts : (object members).Legible room ↔
      1 < room ∧ ∀ part ∈ members.map (·.2), part.Legible (room - 1) := by
    refine legible_iff_parts (by rw [depth]; omega) (fun n => ?_) fun x => ?_
    · rw [depth_object_le, List.forall_mem_map]
    · rw [mem_fractions_object]
      simp only [List.mem_map, exists_exists_and_eq_and]
  rwa [List.forall_mem_map] at parts

theorem pairwise_of_ascending {names : List String} (sorted : ascending names = true) :
    names.Pairwise (· < ·) := by
  induction names with
  | nil => exact .nil
  | cons a rest ih =>
    cases rest with
    | nil => exact List.pairwise_singleton _ _
    | cons b rest =>
      rw [ascending, Bool.and_eq_true, decide_eq_true_eq] at sorted
      have behind := ih sorted.2
      refine .cons (fun c member => ?_) behind
      obtain rfl | later := List.mem_cons.mp member
      · exact sorted.1
      · exact String.lt_trans sorted.1 ((List.pairwise_cons.mp behind).1 c later)

end Json

namespace Tree

open Json (Legible)

theorem values_eq (place : Place) (trees : List Tree) :
    values place trees = Reader.items Reader.value place trees := by
  induction trees with
  | nil => rfl
  | cons t rest ih =>
    rw [values, Reader.items, ih]
    rfl

theorem valueMembers_eq (place : Place) (seen : NameMap Value) (members : List (Option String × Tree)) :
    valueMembers place seen members = Reader.members Reader.value place seen members := by
  induction members generalizing seen with
  | nil => rfl
  | cons m rest ih =>
    obtain ⟨_ | name, t⟩ := m
    · rfl
    · rw [valueMembers, Reader.members]
      simp only [ih]
      rfl

theorem value_integer {n : Int} (fits : Json.fits n = true) (place : Place) :
    (integer n).value place = .ok ⟨.integer n, fits⟩ := by
  rw [value, Value.integer?, dif_pos fits]

/-- Nothing but a number that is too large cannot be read. -/
theorem reads_literal (l : Literal) (place : Place) :
    Reads (l.tree.value place) (l.tree ≠ .overflow) fun _ => True := by
  have size : UInt64.size = 18446744073709551616 := rfl
  have fits : ∀ n : Int, -9223372036854775808 ≤ n ∧ n < 18446744073709551616 →
      Json.fits n = true := by
    intro n bounds
    simpa [Json.fits] using bounds
  have whole : ∀ n : Int, Json.fits n = true →
      Reads ((integer n).value place) (integer n ≠ .overflow) fun _ => True := by
    intro n fits
    rw [value_integer fits]
    exact (Reads.ok trivial).congr (by simp)
  unfold Literal.tree
  dsimp only
  split
  · rename_i plain
    simp only [Bool.and_eq_true, decide_eq_true_eq] at plain
    exact whole _ (fits _ (by omega))
  split
  · rename_i negative
    simp only [Bool.and_eq_true, decide_eq_true_eq] at negative
    exact whole _ (fits _ (by omega))
  split
  · exact (Reads.ok trivial).congr (by simp)
  · exact ⟨fun other => absurd rfl other, fun _ => rfl⟩

/-- A value without fractions is read back as it was. -/
theorem reads_value {j : Json} (canonical : j.isCanonical = true) (place : Place) :
    Reads ((reread j).value place) (j.Legible place.room) j.Kept := by
  induction j generalizing place with
  | null => exact (Reads.ok fun _ => rfl).congr (Json.legible_flat rfl rfl)
  | bool b => exact (Reads.ok fun _ => rfl).congr (Json.legible_flat rfl rfl)
  | integer n =>
    rw [reread, value_integer (by rwa [Json.isCanonical] at canonical)]
    exact (Reads.ok fun _ => rfl).congr (Json.legible_flat rfl rfl)
  | double x =>
    obtain ⟨l, same⟩ := exists_ofDouble x
    have legible : (Json.double x).Legible place.room ↔ ofDouble x ≠ .overflow := by
      refine ⟨fun legible => legible.fractions x (by simp [Json.fractions]), fun number => ?_⟩
      exact ⟨Or.inl rfl, by simpa [Json.fractions] using number⟩
    have read := reads_literal l place
    rw [← same] at read
    exact (read.mono fun _ _ none => by simp [Json.fractions] at none).congr legible
  | string s => exact (Reads.ok fun _ => rfl).congr (Json.legible_flat rfl rfl)
  | array items ih =>
    rw [reread_array, value]
    refine Reads.congr ?_ Json.legible_array
    refine place.reads_enter.bind ?_
    rintro room _ rfl
    rw [values_eq]
    refine (Reader.reads_items fun j member =>
      ih j member (Json.isCanonical_array.mp canonical j member) _).bind_ok fun vs all => ?_
    refine ⟨_, rfl, fun none => congrArg Json.array ?_⟩
    rw [← List.forall₂_eq_eq_eq, List.forall₂_map_left_iff]
    exact (((List.forall₂_and_left _ _).mpr ⟨Json.fractions_array_nil.mp none, all⟩).imp
      fun j v both => both.2 both.1).flip
  | object members ih =>
    rw [reread_object, value]
    refine Reads.congr ?_ Json.legible_object
    refine place.reads_enter.bind ?_
    rintro room _ rfl
    rw [valueMembers_eq]
    obtain ⟨sorted, canonical⟩ := Json.isCanonical_object.mp canonical
    refine (Reader.reads_members (fun m member => ih m member (canonical m member) _) ∅).bind_ok ?_
    rintro _ ⟨found, rfl, all⟩
    refine ⟨_, rfl, fun none => congrArg Json.object ?_⟩
    -- the names ascend as they were written, so no entry takes the place of another
    have names : found.map (·.1) = members.map (·.1) := by
      rw [← List.forall₂_eq_eq_eq, List.forall₂_map_left_iff, List.forall₂_map_right_iff]
      exact (all.imp fun _ _ both => both.1).flip
    rw [← Std.ExtTreeMap.ofList_eq_insertMany_empty, NameMap.toList_ofList (by
      rw [names]
      exact Json.pairwise_of_ascending sorted), ← List.forall₂_eq_eq_eq, List.forall₂_map_left_iff]
    refine (((List.forall₂_and_left _ _).mpr ⟨Json.fractions_object_nil.mp none, all⟩).imp ?_).flip
    rintro m ⟨name, v⟩ ⟨whole, same, kept⟩
    exact Prod.ext same (kept whole)

end Tree

end Rollback
