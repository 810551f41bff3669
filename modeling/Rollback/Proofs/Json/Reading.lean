import Rollback.Proofs.Json.Records
import Rollback.Proofs.NameMap

/-!
# When reading succeeds

`Reads outcome condition result` says that reading succeeds exactly under a condition and with what
result, and that it fails with a syntax error otherwise. Such statements about the parts of a tree
compose to one about the whole: about steps one after the other (`Reads.bind`), the entries of a map
(`reads_members`) and the fields of a record (`Shape.reads_reader`).
-/

namespace Rollback

variable {α β : Type}

/-- Reading succeeds with such a result exactly under the condition, and meets the end of the
document otherwise. -/
structure Reads (outcome : Except Fault α) (condition : Prop) (result : α → Prop) : Prop where
  succeeds : condition → ∃ a, outcome = .ok a ∧ result a
  fails : ¬ condition → outcome = .error .syntaxError

namespace Reads

variable {outcome : Except Fault α} {condition other : Prop} {result result' : α → Prop}

theorem ok {a : α} (holds : result a) : Reads (.ok a) True result :=
  ⟨fun _ => ⟨a, rfl, holds⟩, fun never => absurd trivial never⟩

theorem of_eq {a : α} (same : outcome = .ok a) (holds : result a) : Reads outcome True result :=
  same ▸ ok holds

theorem mono (reads : Reads outcome condition result) (more : ∀ a, result a → result' a) :
    Reads outcome condition result' := by
  refine ⟨fun holds => ?_, reads.fails⟩
  obtain ⟨a, same, first⟩ := reads.succeeds holds
  exact ⟨a, same, more a first⟩

theorem congr (reads : Reads outcome condition result) (same : other ↔ condition) :
    Reads outcome other result :=
  ⟨fun holds => reads.succeeds (same.mp holds), fun never => reads.fails (never ∘ same.mpr)⟩

theorem eq_ok (reads : Reads outcome condition result) (holds : condition) {a : α}
    (only : ∀ b, result b → b = a) : outcome = .ok a := by
  obtain ⟨b, same, first⟩ := reads.succeeds holds
  rw [same, only b first]

/-- Under the condition of the first step, that of the second decides. -/
theorem bind {f : α → Except Fault β} {second : Prop} {last : β → Prop}
    (first : Reads outcome condition result)
    (next : condition → ∀ a, result a → Reads (f a) second last) :
    Reads (outcome >>= f) (condition ∧ second) last := by
  by_cases holds : condition
  · obtain ⟨a, same, met⟩ := first.succeeds holds
    subst same
    exact (next holds a met).congr (and_iff_right holds)
  · refine ⟨fun both => absurd both.1 holds, fun _ => ?_⟩
    rw [first.fails holds]
    rfl

/-- A second step that succeeds anyway leaves the condition as it is. -/
theorem bind_ok {f : α → Except Fault β} {last : β → Prop} (first : Reads outcome condition result)
    (next : ∀ a, result a → ∃ b, f a = .ok b ∧ last b) :
    Reads (outcome >>= f) condition last := by
  refine (first.bind fun _ a met => ?_).congr (and_iff_left trivial).symm
  obtain ⟨b, same, holds⟩ := next a met
  exact .of_eq same holds

theorem map {f : α → β} {last : β → Prop} (first : Reads outcome condition result)
    (next : ∀ a, result a → last (f a)) : Reads (outcome.map f) condition last := by
  have same : outcome.map f = outcome >>= fun a => .ok (f a) := by
    cases outcome <;> rfl
  rw [same]
  exact first.bind_ok fun a met => ⟨f a, rfl, next a met⟩

end Reads

/-- One level can be entered if there is room for more than what is on it. -/
theorem Place.reads_enter (place : Place) :
    Reads place.enter (1 < place.room) (· = { place with room := place.room - 1 }) := by
  unfold Place.enter
  split
  · exact ⟨fun room => absurd room (by omega), fun _ => rfl⟩
  · exact ⟨fun _ => ⟨_, rfl, rfl⟩, fun small => absurd (by omega) small⟩

namespace Reader

variable {read : Reader α} {tree : β → Tree} {condition : β → Prop} {result : β → α → Prop}

theorem reads_items {place : Place} {written : List β}
    (each : ∀ b ∈ written, Reads (read place (tree b)) (condition b) (result b)) :
    Reads (items read place (written.map tree)) (∀ b ∈ written, condition b)
      (List.Forall₂ result written) := by
  induction written with
  | nil => exact (Reads.ok .nil).congr (by simp)
  | cons b rest ih =>
    rw [List.forall_mem_cons] at each
    refine Reads.congr ?_ List.forall_mem_cons
    refine each.1.bind fun _ a first => ?_
    exact (ih each.2).bind_ok fun as others => ⟨_, rfl, .cons first others⟩

/-- The entries of a map, each with what was read under its name. -/
theorem reads_members {place : Place} {written : List (String × β)}
    (each : ∀ e ∈ written, Reads (read place (tree e.2)) (condition e.2) (result e.2))
    (seen : NameMap α) :
    Reads (members read place seen (written.map fun e => (some e.1, tree e.2)))
      (∀ e ∈ written, condition e.2)
      (fun m => ∃ found, m = seen.insertMany found ∧
        List.Forall₂ (fun e a => a.1 = e.1 ∧ result e.2 a.2) written found) := by
  induction written generalizing seen with
  | nil => exact (Reads.ok ⟨[], rfl, .nil⟩).congr (by simp)
  | cons e rest ih =>
    rw [List.forall_mem_cons] at each
    refine Reads.congr ?_ List.forall_mem_cons
    refine each.1.bind fun _ a first => (ih each.2 _).mono ?_
    rintro _ ⟨found, rfl, others⟩
    refine ⟨(e.1, a) :: found, ?_, .cons ⟨rfl, first⟩ others⟩
    rw [Std.ExtTreeMap.insertMany_cons]

end Reader

/-- What has no flaw is read back as it was written. -/
def KeptIf (flawless : α → Prop) (written found : α) : Prop := flawless written → found = written

/-- A map is read back if everything in it is. -/
theorem Reader.reads_nameMap {read : Reader α} {tree : α → Tree} {condition flawless : α → Prop}
    {place : Place} {m : NameMap α} (each : 1 < place.room → ∀ e ∈ m.toList,
      Reads (read { place with room := place.room - 1 } (tree e.2)) (condition e.2)
        (KeptIf flawless e.2)) :
    Reads (nameMap read place (.object (m.toList.map fun e => (some e.1, tree e.2)) true))
      (1 < place.room ∧ ∀ e ∈ m.toList, condition e.2)
      (KeptIf (fun m => ∀ e ∈ m.toList, flawless e.2) m) := by
  refine place.reads_enter.bind ?_
  rintro room _ rfl
  refine (reads_members (each room) ∅).bind_ok ?_
  rintro _ ⟨found, rfl, all⟩
  refine ⟨_, rfl, fun none => ?_⟩
  have same : m.toList = found := by
    rw [← List.forall₂_eq_eq_eq]
    refine ((List.forall₂_and_left _ _).mpr ⟨none, all⟩).imp ?_
    rintro e a ⟨none, name, kept⟩
    exact Prod.ext name.symm (kept none).symm
  rw [← same, ← Std.ExtTreeMap.ofList_eq_insertMany_empty, NameMap.ofList_toList]

/-! ## Records -/

namespace Shape

variable {shape : Shape} {tree : shape.Field → Tree} {condition : shape.Field → Prop}
  {result : (f : shape.Field) → shape.Content f → Prop}

theorem reads_readMembers {place : Place} (named : ∀ f, shape.ofName (shape.name f) = some f)
    {fields : List shape.Field} (distinct : fields.Nodup)
    (each : ∀ f ∈ fields, Reads (shape.read f place (tree f)) (condition f) (result f))
    {p : shape.Partial} (new : ∀ f ∈ fields, p f = none) :
    Reads (readMembers place p (fields.map fun f => (some (shape.name f), tree f)))
      (∀ f ∈ fields, condition f)
      (fun q => ∀ f, (f ∈ fields → ∃ a, q f = some a ∧ result f a) ∧ (f ∉ fields → q f = p f)) := by
  induction fields generalizing p with
  | nil => exact (Reads.ok (by simp)).congr (by simp)
  | cons f rest ih =>
    rw [List.forall_mem_cons] at each new
    obtain ⟨fresh, distinct⟩ := List.nodup_cons.mp distinct
    rw [List.map_cons, readMembers]
    simp only [named, new.1]
    refine Reads.congr ?_ List.forall_mem_cons
    refine each.1.bind fun _ a first => ?_
    have untouched : ∀ g ∈ rest, p.set f a g = none := by
      intro g member
      rw [Partial.set_of_ne p (by rintro rfl; exact fresh member), new.2 g member]
    refine (ih distinct each.2 untouched).mono fun q met g => ?_
    by_cases same : g = f
    · subst same
      have kept : q g = some a := by rw [(met g).2 fresh, Partial.set_self]
      exact ⟨fun _ => ⟨a, kept, first⟩, fun none => absurd List.mem_cons_self none⟩
    · rw [List.mem_cons, or_iff_right same]
      refine ⟨(met g).1, fun other => ?_⟩
      rw [(met g).2 other, Partial.set_of_ne p same]

/-- Nothing is missing from a record if each field was met. -/
theorem exists_complete {p : shape.Partial} (met : ∀ f, ∃ a, p f = some a ∧ result f a) :
    ∃ r, p.complete = .ok r ∧ ∀ f, result f (r f) := by
  cases whole : p.complete with
  | error f =>
    unfold Partial.complete at whole
    split at whole
    · rename_i g missing
      obtain ⟨a, held, _⟩ := met g
      have none := List.find?_some missing
      simp [Partial.get?, held] at none
    · cases whole
  | ok r =>
    refine ⟨r, rfl, fun f => ?_⟩
    obtain ⟨a, held, holds⟩ := met f
    have same := complete_eq whole f
    rw [Partial.get?, held, Option.some_or] at same
    rwa [← Option.some.inj same]

/-- A record is written field by field, and each field is read for itself. -/
theorem reads_reader {place : Place} (named : ∀ f, shape.ofName (shape.name f) = some f)
    (distinct : shape.fields.Nodup) (each : 1 < place.room → ∀ f,
      Reads (shape.read f { place with room := place.room - 1 } (tree f)) (condition f) (result f)) :
    Reads (shape.reader place (.object (shape.fields.map fun f => (some (shape.name f), tree f)) true))
      (1 < place.room ∧ ∀ f, condition f) (fun r => ∀ f, result f (r f)) := by
  refine place.reads_enter.bind ?_
  rintro room _ rfl
  have members := reads_readMembers named distinct (p := Partial.empty) (fun f _ => each room f)
    (fun _ _ => rfl)
  refine (members.congr (by simp [shape.complete])).bind_ok fun q met => ?_
  obtain ⟨r, whole, holds⟩ := exists_complete fun f => (met f).1 (shape.complete f)
  refine ⟨r, ?_, holds⟩
  simp only [Tree.finish, if_true, bind, Except.bind, whole]

theorem reads_only {name : String} {read : Reader α} {place : Place} {t : Tree} {condition : Prop}
    {result : α → Prop} (each : 1 < place.room →
      Reads (read { place with room := place.room - 1 } t) condition result) :
    Reads (only name read place (.object [(some name, t)] true)) (1 < place.room ∧ condition)
      result := by
  have record := @reads_reader (single name read) (fun _ => t) (fun _ => condition)
    (fun _ => result) place (by simp [ofName, single]) (by simp [single]) (fun room _ => each room)
  exact (record.map fun r holds => holds ()).congr (by simp [single])

/-- Members that no field is named for are passed over. -/
theorem readMembers_of_foreign {place : Place} {p : shape.Partial}
    {members : List (Option String × Tree)}
    (foreign : ∀ m ∈ members, ∃ name, m.1 = some name ∧ shape.ofName name = none)
    (whole : ∀ m ∈ members, m.2.isWhole = true) : readMembers place p members = .ok p := by
  induction members with
  | nil => rfl
  | cons m rest ih =>
    rw [List.forall_mem_cons] at foreign whole
    obtain ⟨_, t⟩ := m
    obtain ⟨⟨name, rfl, unknown⟩, foreign⟩ := foreign
    have passed : t.ignore = .ok () := if_pos whole.1
    rw [readMembers]
    simp only [unknown, passed, bind, Except.bind]
    exact ih foreign whole.2

/-- The only field of a record is read from its first member. -/
theorem only_eq_ok {name : String} {read : Reader α} {place : Place} {t : Tree} {a : α}
    {others : List (Option String × Tree)} (room : 1 < place.room)
    (first : read { place with room := place.room - 1 } t = .ok a)
    (foreign : ∀ m ∈ others, ∃ other, m.1 = some other ∧ other ≠ name)
    (whole : ∀ m ∈ others, m.2.isWhole = true) :
    only name read place (.object ((some name, t) :: others) true) = .ok a := by
  have entered := place.reads_enter.eq_ok room fun _ same => same
  have named : (single name read).ofName name = some () := by simp [ofName, single]
  have passed : ∀ p : (single name read).Partial,
      readMembers { place with room := place.room - 1 } p others = .ok p := by
    intro p
    refine readMembers_of_foreign (fun m member => ?_) whole
    obtain ⟨other, same, different⟩ := foreign m member
    exact ⟨other, same, by simp [ofName, single, Ne.symm different]⟩
  have met : ∃ r, ((Partial.empty : (single name read).Partial).set () a).complete = .ok r ∧
      ∀ f, r f = a :=
    @exists_complete (single name read) (fun _ b => b = a) _ fun _ => ⟨a, Partial.set_self _ _ _, rfl⟩
  obtain ⟨r, complete, same⟩ := met
  refine Reader.map_eq_ok_iff.mpr ⟨r, ?_, same ()⟩
  rw [reader, entered, Outcome.bind_eq_ok_iff]
  refine ⟨_, rfl, ?_⟩
  rw [readMembers]
  simp only [named]
  have read : (single name read).read () { place with room := place.room - 1 } t = .ok a := first
  rw [if_neg (by simp [Partial.empty]), read]
  simp only [bind, Except.bind, passed, Tree.finish, if_true, complete]

end Shape

end Rollback
