import Rollback.Json.Tagged
import Rollback.Proofs.Json.Restating
import Rollback.Proofs.Json.Values

/-!
# A tag among the members

All members are read as values before the tag says what they are for. So a tagged object is read where
it can be read as a value, and then it is what the reader for the tag makes of the other members
(`tagged_object`); wherever the tag stands, nothing else has a part in the choice of this reader
(`exists_tag_of_tagged`).
-/

namespace Rollback

open Yaml (Outline)

variable {κ α : Type}

/-- No member has the name of the tag. -/
def Untagged (label : String) (members : List (Option String × Tree)) : Prop :=
  ∀ m ∈ members, m.1 ≠ some label

theorem Untagged.of_forall₂ {label : String} {members kept : List (Option String × Tree)}
    (untagged : Untagged label members)
    (same : List.Forall₂ (fun m m' => m'.1 = m.1) members kept) : Untagged label kept := by
  induction same with
  | nil => exact untagged
  | cons first _ ih =>
    obtain ⟨other, rest⟩ := List.forall_mem_cons.mp untagged
    exact List.forall_mem_cons.mpr ⟨first ▸ other, ih rest⟩

namespace Reader

variable {label : String} {tag : Reader κ} {place : Place}
  {front back members left : List (Option String × Tree)} {t : Tree} {k : κ} {v : Value}

/-- A member that is not the tag is kept, and it has to be a value. -/
theorem pickTag_cons_of_ne {m : Option String × Tree} (other : m.1 ≠ some label)
    {seen found : Option κ} (rest : ∀ into, pickTag label tag place seen members =
      (Tree.valueMembers place into members).map fun _ => (found, left)) (into : NameMap Value) :
    pickTag label tag place seen (m :: members) =
      (Tree.valueMembers place into (m :: members)).map fun _ => (found, m :: left) := by
  obtain ⟨_ | name, t⟩ := m
  · rfl
  · have different : name ≠ label := fun same => other (congrArg some same)
    rw [pickTag, if_neg different, Tree.valueMembers]
    cases t.value place with
    | error _ => rfl
    | ok v =>
      simp only [bind, Except.bind, rest (into.insert name v)]
      cases Tree.valueMembers place (into.insert name v) members <;> rfl

/-- Members without a tag are kept as they are if they are values. -/
theorem pickTag_untagged (untagged : Untagged label members) (seen : Option κ) (into : NameMap Value) :
    pickTag label tag place seen members =
      (Tree.valueMembers place into members).map fun _ => (seen, members) := by
  induction members generalizing into with
  | nil => rfl
  | cons m members ih =>
    obtain ⟨other, rest⟩ := List.forall_mem_cons.mp untagged
    exact pickTag_cons_of_ne other (ih rest) into

/-- The tag is taken out from among the members. -/
theorem pickTag_among (untagged : Untagged label (front ++ back)) (read : tag place t = .ok k)
    (value : t.value place = .ok v) (into : NameMap Value) :
    pickTag label tag place none (front ++ (some label, t) :: back) =
      (Tree.valueMembers place into (front ++ (some label, t) :: back)).map fun _ =>
        (some k, front ++ back) := by
  induction front generalizing into with
  | nil =>
    rw [List.nil_append, List.nil_append, pickTag, if_pos rfl, Tree.valueMembers]
    simp only [Option.isSome_none, Bool.false_eq_true, if_false, read, value, bind, Except.bind]
    exact pickTag_untagged untagged (some k) _
  | cons m front ih =>
    obtain ⟨other, rest⟩ := List.forall_mem_cons.mp untagged
    exact pickTag_cons_of_ne other (ih rest) into

/-- Where a member is not the tag, what is taken was taken out of the members behind it. -/
theorem exists_pickTag_of_cons {name : String} (different : name ≠ label) {seen found : Option κ}
    (picked : pickTag label tag place seen ((some name, t) :: members) = .ok (found, left)) :
    ∃ kept, pickTag label tag place seen members = .ok (found, kept) ∧
      left = (some name, t) :: kept := by
  rw [pickTag, if_neg different] at picked
  obtain ⟨_, _, others⟩ := Outcome.bind_eq_ok_iff.mp picked
  obtain ⟨⟨_, kept⟩, later, ended⟩ := Outcome.bind_eq_ok_iff.mp others
  cases ended
  exact ⟨kept, later, rfl⟩

/-- Once there is a tag, no other one is taken. -/
theorem untagged_of_pickTag {found : κ}
    (picked : pickTag label tag place (some k) members = .ok (some found, left)) :
    found = k ∧ left = members ∧ Untagged label members := by
  induction members generalizing left with
  | nil =>
    cases picked
    exact ⟨rfl, rfl, by simp [Untagged]⟩
  | cons m rest ih =>
    obtain ⟨_ | name, t⟩ := m
    · cases picked
    by_cases same : name = label
    · rw [pickTag, if_pos same] at picked
      cases picked
    · obtain ⟨_, later, rfl⟩ := exists_pickTag_of_cons same picked
      obtain ⟨known, rfl, untagged⟩ := ih later
      exact ⟨known, rfl, List.forall_mem_cons.mpr ⟨by simpa using same, untagged⟩⟩

/-- A tag that was found stands among the members, and only once. -/
theorem exists_untagged_of_pickTag (picked : pickTag label tag place none members = .ok (some k, left)) :
    ∃ front t back, members = front ++ (some label, t) :: back ∧ left = front ++ back ∧
      Untagged label left ∧ tag place t = .ok k := by
  induction members generalizing left with
  | nil => cases picked
  | cons m rest ih =>
    obtain ⟨_ | name, t⟩ := m
    · cases picked
    by_cases same : name = label
    · subst same
      rw [pickTag, if_pos rfl, if_neg (by simp)] at picked
      obtain ⟨first, read, others⟩ := Outcome.bind_eq_ok_iff.mp picked
      obtain ⟨rfl, rfl, untagged⟩ := untagged_of_pickTag others
      exact ⟨[], t, _, rfl, rfl, untagged, read⟩
    · obtain ⟨_, later, rfl⟩ := exists_pickTag_of_cons same picked
      obtain ⟨front, u, back, rfl, rfl, untagged, read⟩ := ih later
      exact ⟨(some name, t) :: front, u, back, rfl, rfl,
        List.forall_mem_cons.mpr ⟨by simpa using same, untagged⟩, read⟩

/-! ## Tagged objects -/

variable {variants : List (String × κ)} {word : String} {body : κ → Reader α} {a : α}

/-- The tag chooses the reader of the other members, wherever it stands. -/
theorem tagged_object (untagged : Untagged label (front ++ back)) (known : variants.lookup word = some k) :
    tagged label (variant variants) body place
        (.object (front ++ (some label, .string (some word)) :: back) true) =
      Tree.value place (.object (front ++ (some label, .string (some word)) :: back) true) >>= fun _ =>
        body k { place with buffered := true } (.object (front ++ back) true) := by
  have read : ∀ place, variant variants place (.string (some word)) = .ok k := by
    intro place
    simp only [variant, text, variantOf, known, bind, Except.bind]
  rw [tagged, withTag, Tree.value]
  cases place.enter with
  | error _ => rfl
  | ok inner =>
    have picked := pickTag_among untagged (read inner) (v := .string word) rfl ∅
    simp only [bind, Except.bind, picked]
    cases Tree.valueMembers inner ∅ (front ++ (some label, .string (some word)) :: back) <;> rfl

/-- What is read from an object is read for the tag that stands among its members. -/
theorem exists_tag_of_tagged (read : tagged label (variant variants) body place (.object members true) =
    .ok a) : ∃ front t back k, members = front ++ (some label, t) :: back ∧
      Untagged label (front ++ back) ∧ (∃ inner, variant variants inner t = .ok k) ∧
      body k { place with buffered := true } (.object (front ++ back) true) = .ok a := by
  obtain ⟨⟨k, tree⟩, tagged, read⟩ := Outcome.bind_eq_ok_iff.mp read
  obtain ⟨inner, _, tagged⟩ := Outcome.bind_eq_ok_iff.mp tagged
  obtain ⟨⟨_ | found, left⟩, picked, tagged⟩ := Outcome.bind_eq_ok_iff.mp tagged
  · cases tagged
  · cases tagged
    obtain ⟨front, t, back, rfl, rfl, untagged, tag⟩ := exists_untagged_of_pickTag picked
    exact ⟨front, t, back, k, rfl, untagged, ⟨inner, tag⟩, read⟩

end Reader

/-! ## Restated objects -/

namespace Yaml.Outline

/-- A record with a tag among its members. -/
def withTag (label : String) : Outline → Outline
  | .record part => .record fun name => if name = label then .text else part name
  | other => other

/-- In an object that says the same the tag stands somewhere, and the other members say the same as
they did. -/
theorem rewords_withTag {label : String} {part : String → Outline} {t tree : Tree}
    {members : List (Option String × Tree)}
    (named : ∀ m ∈ members, ∃ name, m.1 = some name ∧ name ≠ label)
    (rewords : ((record part).withTag label).Rewords (.object ((some label, t) :: members) true) tree) :
    ∃ front back, tree = .object (front ++ (some label, t) :: back) true ∧
      Untagged label (front ++ back) ∧
      (record part).Rewords (.object members true) (.object (front ++ back) true) := by
  obtain ⟨_, _, more, all, same, rfl, all, foreign, order⟩ := rewords
  cases same
  obtain ⟨tag, kept, ⟨name, whole⟩, held, rfl⟩ := List.forall₂_cons_left_iff.mp all
  obtain ⟨_, u⟩ := tag
  obtain rfl : _ = some label := name
  obtain rfl : u = t := by simpa [Rewords] using whole
  obtain ⟨front, back, rfl⟩ := List.append_of_mem (order.mem_iff.mpr List.mem_cons_self)
  have others : (front ++ back).Perm (kept ++ more) := (List.perm_middle.symm.trans order).cons_inv
  have keptUntagged : Untagged label kept := by
    refine Untagged.of_forall₂ (fun m member => ?_) (held.imp fun _ _ each => each.1)
    obtain ⟨name, first, other⟩ := named m member
    simpa [first] using other
  have said : List.Forall₂ (fun m m' => m'.1 = m.1 ∧ (part (m.1.getD "")).Rewords m.2 m'.2)
      members kept := by
    refine ((List.forall₂_and_left _ _).mpr ⟨named, held⟩).imp ?_
    rintro m m' ⟨⟨name, same, other⟩, first, second⟩
    exact ⟨first, by simpa [same, other] using second⟩
  have added : ∀ m ∈ more, ∃ name, m.1 = some name ∧ name ≠ label ∧ part name = .ignored ∧
      m.2.isWhole = true := by
    intro m member
    obtain ⟨name, same, ignored, whole⟩ := foreign m member
    have other : name ≠ label := by
      rintro rfl
      simp at ignored
    exact ⟨name, same, other, by simpa [other] using ignored, whole⟩
  have moreUntagged : Untagged label more := by
    intro m member
    obtain ⟨name, first, other, _⟩ := added m member
    simpa [first] using other
  refine ⟨front, back, rfl, fun m member => ?_, _, _, more, _, rfl, rfl, said, fun m member => ?_,
    others⟩
  · exact List.forall_mem_append.mpr ⟨keptUntagged, moreUntagged⟩ m (others.mem_iff.mp member)
  · obtain ⟨name, first, _, ignored, whole⟩ := added m member
    exact ⟨name, first, ignored, whole⟩

end Yaml.Outline

end Rollback
