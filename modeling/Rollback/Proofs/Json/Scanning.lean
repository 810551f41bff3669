import Mathlib.Data.List.Forall2
import Rollback.Proofs.Json.Strings

/-!
# Written documents are scanned

`ScannedTo j t` says that the text of `j` is scanned to the tree `t` wherever it stands and in
either layout. Strings are scanned to what they hold (`scannedTo_string`), and an object is scanned
to the trees of its members (`scannedTo_object`). Each step of the scanner passes at least one
character, so that as many steps as characters are enough.
-/

namespace Rollback.Tree

open Json (stringChar stringChars chars memberChars)

/-! ## White space -/

theorem skipSpace_append_of_all {front : List Char} (blank : ∀ c ∈ front, isSpace c = true)
    (cs : List Char) : skipSpace (front ++ cs) = skipSpace cs := by
  rw [skipSpace, List.dropWhile_append_of_pos blank, skipSpace]

theorem skipSpace_cons_of_not {c : Char} (solid : isSpace c = false) (cs : List Char) :
    skipSpace (c :: cs) = c :: cs := by
  simp [skipSpace, solid]

theorem isSpace_of_mem_lineBreak {layout : Layout} {level : Nat} {c : Char}
    (member : c ∈ layout.lineBreak level) : isSpace c = true := by
  cases layout with
  | compact => cases member
  | indented =>
    obtain rfl | space := List.mem_cons.mp member
    · rfl
    · rw [(List.mem_replicate.mp space).2]
      rfl

theorem scan_append_of_all {front : List Char} (blank : ∀ c ∈ front, isSpace c = true)
    (steps : Nat) (cs : List Char) : scan steps (front ++ cs) = scan steps cs := by
  cases steps with
  | zero => rw [scan, scan]
  | succ steps => rw [scan, scan, skipSpace_append_of_all blank]

theorem scanMembers_append_of_all {front : List Char} (blank : ∀ c ∈ front, isSpace c = true)
    (steps : Nat) (cs : List Char) : scanMembers steps (front ++ cs) = scanMembers steps cs := by
  cases steps with
  | zero => rw [scanMembers, scanMembers]
  | succ steps => rw [scanMembers, scanMembers, skipSpace_append_of_all blank]

/-! ## Parts of a document -/

/-- What may follow a part of a document. -/
def EndsPart (rest : List Char) : Prop :=
  ∀ c ∈ rest.head?, isSpace c = true ∨ c = ',' ∨ c = ']' ∨ c = '}'

theorem endsPart_cons {c : Char} (ends : c = ',' ∨ c = ']' ∨ c = '}') (rest : List Char) :
    EndsPart (c :: rest) := by
  rintro _ ⟨⟩
  exact Or.inr ends

theorem endsPart_lineBreak (layout : Layout) (level : Nat) {c : Char}
    (ends : c = ',' ∨ c = ']' ∨ c = '}') (rest : List Char) :
    EndsPart (layout.lineBreak level ++ c :: rest) := by
  cases layout with
  | compact => exact endsPart_cons ends rest
  | indented =>
    rintro _ ⟨⟩
    exact Or.inl rfl

/-- The text of the document is scanned to the tree. -/
def ScannedTo (j : Json) (t : Tree) : Prop :=
  ∀ (layout : Layout) (level : Nat) (rest : List Char) (steps : Nat), EndsPart rest →
    (chars layout level j).length ≤ steps → scan steps (chars layout level j ++ rest) = (t, rest)

theorem stringChars_append (s : String) (rest : List Char) :
    stringChars s ++ rest = '"' :: (s.toList.flatMap stringChar ++ '"' :: rest) := by
  simp [stringChars]

theorem scannedTo_string (s : String) : ScannedTo (.string s) (.string (some s)) := by
  intro layout level rest steps _ enough
  obtain ⟨steps, rfl⟩ : ∃ n, steps = n + 1 := Nat.exists_eq_succ_of_ne_zero (by
    rintro rfl
    simp [chars, stringChars] at enough)
  rw [chars, stringChars_append, scan, skipSpace_cons_of_not rfl]
  simp only [scanString_stringChars]

/-! ## Members -/

/-- A name and its value in front of the other members. -/
def memberText (layout : Layout) (level : Nat) (name : String) (j : Json) : List Char :=
  stringChars name ++ (layout.colon ++ chars layout level j)

/-- The members from this one on: a comma goes on to the others, and a brace ends them. -/
def membersFrom (member : Option String × Tree) (steps : Nat) (behind : List Char) :
    List (Option String × Tree) × Bool × List Char :=
  match skipSpace behind with
  | ',' :: rest =>
    let (members, closed, rest) := scanMembers steps rest
    (member :: members, closed, rest)
  | '}' :: rest => ([member], true, rest)
  | _ => ([member], false, [])

theorem exists_membersFrom (member : Option String × Tree) (steps : Nat) (behind : List Char) :
    ∃ more closed rest, membersFrom member steps behind = (member :: more, closed, rest) := by
  unfold membersFrom
  split
  · exact ⟨_, _, _, rfl⟩
  · exact ⟨_, _, _, rfl⟩
  · exact ⟨_, _, _, rfl⟩

theorem scanMembers_memberText {name : String} {j : Json} {t : Tree} (scanned : ScannedTo j t)
    (layout : Layout) (level steps : Nat) {behind : List Char} (ends : EndsPart behind)
    (enough : (memberText layout level name j).length ≤ steps) :
    scanMembers (steps + 1) (memberText layout level name j ++ behind) =
      membersFrom (some name, t) steps behind := by
  have value : scan steps (layout.colon.tail ++ (chars layout level j ++ behind)) = (t, behind) := by
    have blank : ∀ c ∈ layout.colon.tail, isSpace c = true := by
      intro c space
      cases layout with
      | compact => cases space
      | indented =>
        rw [List.mem_singleton.mp space]
        rfl
    rw [scan_append_of_all blank]
    apply scanned layout level behind steps ends
    simp only [memberText, List.length_append] at enough
    omega
  have colon : layout.colon = ':' :: layout.colon.tail := by
    cases layout <;> rfl
  rw [memberText, List.append_assoc, stringChars_append, List.append_assoc, colon,
    scanMembers, skipSpace_cons_of_not rfl]
  simp only [scanString_stringChars]
  rw [List.cons_append, skipSpace_cons_of_not rfl]
  simp only [value]
  rfl

theorem memberChars_cons (layout : Layout) (level : Nat) (name : String) (j : Json)
    (members : List (String × Json)) :
    memberChars layout level ((name, j) :: members) =
      ',' :: (layout.lineBreak level ++
        (memberText layout level name j ++ memberChars layout level members)) := by
  simp [memberChars, memberText]

/-- The members up to the brace, each scanned to its tree. -/
theorem scanMembers_chars {members : List (String × Json)} {trees : List (Option String × Tree)}
    (scanned : List.Forall₂ (fun m t => t.1 = some m.1 ∧ ScannedTo m.2 t.2) members trees)
    {name : String} {j : Json} {t : Tree} (first : ScannedTo j t)
    (layout : Layout) (level below steps : Nat) (rest : List Char)
    (enough : (memberText layout level name j ++ memberChars layout level members).length < steps) :
    scanMembers steps (memberText layout level name j ++ (memberChars layout level members ++
      (layout.lineBreak below ++ '}' :: rest))) = ((some name, t) :: trees, true, rest) := by
  have blank : ∀ level, ∀ c ∈ layout.lineBreak level, isSpace c = true :=
    fun _ _ => isSpace_of_mem_lineBreak
  induction scanned generalizing name j t steps with
  | nil =>
    obtain ⟨steps, rfl⟩ := Nat.exists_eq_succ_of_ne_zero (Nat.ne_zero_of_lt enough)
    rw [memberChars, List.append_nil] at enough
    rw [memberChars, List.nil_append, scanMembers_memberText first layout level steps
      (endsPart_lineBreak layout below (by decide) rest) (Nat.le_of_lt_succ enough)]
    rw [membersFrom, skipSpace_append_of_all (blank below), skipSpace_cons_of_not rfl]
    rfl
  | @cons member tree members trees head _ ih =>
    obtain ⟨next, j'⟩ := member
    obtain ⟨_, t'⟩ := tree
    obtain ⟨rfl, second⟩ := head
    obtain ⟨steps, rfl⟩ := Nat.exists_eq_succ_of_ne_zero (Nat.ne_zero_of_lt enough)
    rw [memberChars_cons] at enough
    simp only [List.length_append, List.length_cons] at enough
    have here : (memberText layout level name j).length ≤ steps := by omega
    have later : (memberText layout level next j' ++ memberChars layout level members).length <
        steps := by
      rw [List.length_append]
      omega
    rw [memberChars_cons, List.cons_append,
      scanMembers_memberText first layout level steps (endsPart_cons (by decide) _) here]
    rw [membersFrom, skipSpace_cons_of_not rfl]
    simp only [List.append_assoc]
    rw [scanMembers_append_of_all (blank level), ih second steps later]

/-! ## Objects -/

theorem chars_object (layout : Layout) (level : Nat) (name : String) (j : Json)
    (members : List (String × Json)) (rest : List Char) :
    chars layout level (.object ((name, j) :: members)) ++ rest =
      '{' :: (layout.lineBreak (level + 1) ++ (memberText layout (level + 1) name j ++
        (memberChars layout (level + 1) members ++ (layout.lineBreak level ++ '}' :: rest)))) := by
  simp [chars, memberText]

/-- An object is scanned member by member once its brace has been seen. -/
theorem scan_object (layout : Layout) (level : Nat) (name : String) (j : Json) (steps : Nat)
    (behind : List Char) :
    scan (steps + 1) ('{' :: (layout.lineBreak level ++ (memberText layout level name j ++ behind))) =
      let (members, closed, rest) := scanMembers steps (memberText layout level name j ++ behind)
      (object members closed, rest) := by
  have quoted : skipSpace (layout.lineBreak level ++ (memberText layout level name j ++ behind)) =
      memberText layout level name j ++ behind := by
    rw [skipSpace_append_of_all fun _ => isSpace_of_mem_lineBreak, memberText, List.append_assoc,
      stringChars_append, skipSpace_cons_of_not rfl]
  rw [scan, skipSpace_cons_of_not rfl]
  simp only [quoted]
  rw [memberText, List.append_assoc, stringChars_append]
  rfl

theorem scannedTo_object {members : List (String × Json)} {trees : List (Option String × Tree)}
    (scanned : List.Forall₂ (fun m t => t.1 = some m.1 ∧ ScannedTo m.2 t.2) members trees) :
    ScannedTo (.object members) (.object trees true) := by
  intro layout level rest steps _ enough
  cases scanned with
  | nil =>
    obtain ⟨steps, rfl⟩ : ∃ n, steps = n + 1 := Nat.exists_eq_succ_of_ne_zero (by
      rintro rfl
      simp [chars] at enough)
    rw [chars, List.cons_append, List.cons_append, scan, skipSpace_cons_of_not rfl]
    simp only [skipSpace_cons_of_not (show isSpace '}' = false from rfl), List.nil_append]
  | @cons member tree members trees head tail =>
    obtain ⟨name, j⟩ := member
    obtain ⟨_, t⟩ := tree
    obtain ⟨rfl, first⟩ := head
    have length := congrArg List.length (chars_object layout level name j members [])
    simp only [List.append_nil, List.length_cons, List.length_append, List.length_nil] at length
    obtain ⟨steps, rfl⟩ : ∃ n, steps = n + 1 := Nat.exists_eq_succ_of_ne_zero (by omega)
    have inside : (memberText layout (level + 1) name j ++
        memberChars layout (level + 1) members).length < steps := by
      rw [List.length_append]
      omega
    rw [chars_object, scan_object, scanMembers_chars tail first _ _ _ steps rest inside]

/-! ## Documents -/

theorem endsPart_memberChars (layout : Layout) (level below : Nat) (members : List (String × Json))
    (rest : List Char) :
    EndsPart (memberChars layout level members ++ (layout.lineBreak below ++ '}' :: rest)) := by
  cases members with
  | nil =>
    rw [memberChars, List.nil_append]
    exact endsPart_lineBreak layout below (by decide) rest
  | cons member members =>
    rw [memberChars_cons]
    exact endsPart_cons (by decide) _

/-- The first member of an object is scanned whatever the others are. -/
theorem documentOf_first {j : Json} {t : Tree} (scanned : ScannedTo j t) (name : String)
    (members : List (String × Json)) (layout : Layout) :
    ∃ more closed ended, documentOf ((Json.object ((name, j) :: members)).render layout) =
      ⟨object ((some name, t) :: more) closed, ended⟩ := by
  have text := chars_object layout 0 name j members []
  rw [List.append_nil] at text
  have enough : (memberText layout 1 name j).length ≤
      2 * (chars layout 0 (.object ((name, j) :: members))).length := by
    rw [text]
    simp only [List.length_cons, List.length_append, Nat.zero_add]
    omega
  rw [documentOf, Json.render, String.toList_ofList, documentOfChars]
  generalize 2 * (chars layout 0 (.object ((name, j) :: members))).length = steps at enough ⊢
  rw [text, scan_object, Nat.zero_add, scanMembers_memberText scanned layout 1 steps
    (endsPart_memberChars layout 1 0 members []) enough]
  obtain ⟨more, closed, left, members⟩ := exists_membersFrom (some name, t) steps
    (memberChars layout 1 members ++ (layout.lineBreak 0 ++ ['}']))
  rw [members]
  exact ⟨more, closed, _, rfl⟩

end Rollback.Tree
