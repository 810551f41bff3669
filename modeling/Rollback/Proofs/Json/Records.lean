import Rollback.Json.Record
import Rollback.Proofs.Outcome

/-!
# Records are read member by member

What a reader of a record finds under the name of a field is what the record holds there
(`Shape.exists_read`), whatever the order of the members, the members beside it and the end of the
object are. A map is read entry by entry.
-/

namespace Rollback

variable {α β : Type}

theorem Reader.map_eq_ok_iff {f : α → β} {read : Reader α} {place : Place} {t : Tree} {b : β} :
    Reader.map f read place t = .ok b ↔ ∃ a, read place t = .ok a ∧ f a = b := by
  change (read place t).map f = .ok b ↔ _
  cases read place t with
  | error _ => simp [Except.map]
  | ok a => simp [Except.map]

namespace Shape

variable {shape : Shape}

/-- A field that was met keeps its content, and each member that names a field was met. -/
theorem read_of_readMembers {place : Place} {members : List (Option String × Tree)}
    {p q : shape.Partial} (read : readMembers place p members = .ok q) :
    (∀ f, (p f).isSome → q f = p f) ∧
      ∀ name t f, (some name, t) ∈ members → shape.ofName name = some f →
        ∃ a, shape.read f place t = .ok a ∧ q f = some a := by
  induction members generalizing p with
  | nil =>
    cases read
    exact ⟨fun _ _ => rfl, by simp⟩
  | cons member members ih =>
    obtain ⟨_ | name, t⟩ := member
    · cases read
    rw [readMembers] at read
    cases named : shape.ofName name with
    | none =>
      simp only [named] at read
      obtain ⟨_, _, read⟩ := Outcome.bind_eq_ok_iff.mp read
      obtain ⟨kept, found⟩ := ih read
      refine ⟨kept, fun other u f member field => ?_⟩
      obtain same | later := List.mem_cons.mp member
      · cases same
        rw [named] at field
        cases field
      · exact found other u f later field
    | some g =>
      simp only [named] at read
      split at read
      · cases read
      rename_i fresh
      obtain ⟨a, content, read⟩ := Outcome.bind_eq_ok_iff.mp read
      obtain ⟨kept, found⟩ := ih read
      have met : q g = some a := by
        rw [kept g (by simp [Partial.set_self]), Partial.set_self]
      refine ⟨fun f known => ?_, fun other u f member field => ?_⟩
      · have different : f ≠ g := by
          rintro rfl
          exact fresh known
        rw [kept f (by rwa [Partial.set_of_ne _ different]), Partial.set_of_ne _ different]
      · obtain same | later := List.mem_cons.mp member
        · cases same
          rw [named] at field
          cases field
          exact ⟨a, content, met⟩
        · exact found other u f later field

theorem complete_eq {p : shape.Partial} {r : shape.Record} (whole : p.complete = .ok r)
    (f : shape.Field) : p.get? f = some (r f) := by
  unfold Partial.complete at whole
  split at whole
  · cases whole
  · cases whole
    simp

/-- A record holds what the member with a field's name is read to. -/
theorem exists_read {place : Place} {members : List (Option String × Tree)} {closed : Bool}
    {r : shape.Record} (read : shape.reader place (.object members closed) = .ok r) {name : String}
    {t : Tree} {f : shape.Field} (member : (some name, t) ∈ members)
    (field : shape.ofName name = some f) : ∃ inner, shape.read f inner t = .ok (r f) := by
  rw [reader] at read
  obtain ⟨inner, _, read⟩ := Outcome.bind_eq_ok_iff.mp read
  obtain ⟨p, met, read⟩ := Outcome.bind_eq_ok_iff.mp read
  obtain ⟨q, finished, read⟩ := Outcome.bind_eq_ok_iff.mp read
  have same : q = p := by
    rw [Tree.finish] at finished
    split at finished
    · exact (Except.ok.inj finished).symm
    · cases finished
  subst q
  obtain ⟨a, content, known⟩ := (read_of_readMembers met).2 name t f member field
  cases whole : p.complete with
  | error _ =>
    rw [whole] at read
    cases read
  | ok r' =>
    rw [whole] at read
    cases read
    have held := complete_eq whole f
    rw [Partial.get?, known, Option.some_or] at held
    rw [Option.some.inj held] at content
    exact ⟨inner, content⟩

theorem exists_read_only {name : String} {read : Reader α} {place : Place}
    {members : List (Option String × Tree)} {closed : Bool} {a : α} {t : Tree}
    (found : only name read place (.object members closed) = .ok a)
    (member : (some name, t) ∈ members) : ∃ inner, read inner t = .ok a := by
  obtain ⟨r, record, rfl⟩ := Reader.map_eq_ok_iff.mp found
  exact exists_read (f := ()) record member (by simp [ofName, single])

end Shape

namespace Reader

theorem members_map {read : Reader α} {place : Place} {tree : α → Tree}
    (reads : ∀ a, read place (tree a) = .ok a) (seen : NameMap α) (entries : List (String × α)) :
    members read place seen (entries.map fun e => (some e.1, tree e.2)) =
      .ok (seen.insertMany entries) := by
  induction entries generalizing seen with
  | nil => rfl
  | cons e entries ih =>
    rw [List.map_cons, members, reads, Std.ExtTreeMap.insertMany_cons]
    exact ih (seen.insert e.1 e.2)

end Reader

end Rollback
