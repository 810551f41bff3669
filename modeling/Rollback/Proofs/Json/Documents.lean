import Rollback.Proofs.Double.Text
import Rollback.Proofs.Json.Numbers

/-!
# Whole documents

The text of a value's document is scanned to the end and to a tree that is known beforehand
(`documentOf_render`): it has the shape of the document and everything that the document holds, but
each fraction is the number that is read from its text (`reread`). However deep the document is and
whatever its numbers are read to, the tree can be passed over (`isWhole_reread`).
-/

namespace Rollback

/-- Documents are built from their items and members. -/
@[elab_as_elim, induction_eliminator]
theorem Json.induct {motive : Json → Prop} (null : motive .null) (bool : ∀ b, motive (.bool b))
    (integer : ∀ n, motive (.integer n)) (double : ∀ x, motive (.double x))
    (string : ∀ s, motive (.string s))
    (array : ∀ items, (∀ j ∈ items, motive j) → motive (.array items))
    (object : ∀ members, (∀ m ∈ members, motive m.2) → motive (.object members)) (j : Json) :
    motive j := by
  refine @Json.rec motive (fun items => ∀ j ∈ items, motive j)
    (fun members => ∀ m ∈ members, motive m.2) (fun m => motive m.2) null bool integer double string
    array object ?_ ?_ ?_ ?_ ?_ j
  · simp
  · simp +contextual
  · simp
  · exact fun _ _ first rest => List.forall_mem_cons.mpr ⟨first, rest⟩
  · exact fun _ _ holds => holds

namespace Json

mutual
/-- The numbers with a fraction in a document. -/
def fractions : Json → List Double
  | double x => [x]
  | array items => fractionsOfItems items
  | object members => fractionsOfMembers members
  | _ => []

def fractionsOfItems : List Json → List Double
  | [] => []
  | j :: rest => fractions j ++ fractionsOfItems rest

def fractionsOfMembers : List (String × Json) → List Double
  | [] => []
  | (_, j) :: rest => fractions j ++ fractionsOfMembers rest
end

theorem mem_fractions_array {items : List Json} {x : Double} :
    x ∈ (array items).fractions ↔ ∃ j ∈ items, x ∈ j.fractions := by
  rw [fractions]
  induction items with
  | nil => simp [fractionsOfItems]
  | cons j rest ih => simp [fractionsOfItems, ih]

theorem mem_fractions_object {members : List (String × Json)} {x : Double} :
    x ∈ (object members).fractions ↔ ∃ m ∈ members, x ∈ m.2.fractions := by
  rw [fractions]
  induction members with
  | nil => simp [fractionsOfMembers]
  | cons m rest ih =>
    obtain ⟨name, j⟩ := m
    simp [fractionsOfMembers, ih]

theorem isCanonical_array {items : List Json} :
    (array items).isCanonical = true ↔ ∀ j ∈ items, j.isCanonical = true := by
  rw [isCanonical, areCanonical_iff]

theorem isCanonical_object {members : List (String × Json)} :
    (object members).isCanonical = true ↔
      ascending (members.map (·.1)) = true ∧ ∀ m ∈ members, m.2.isCanonical = true := by
  rw [isCanonical, Bool.and_eq_true, haveCanonical_iff]

end Json

namespace Tree

open Json (chars itemChars)

mutual
/-- The tree of a written document. -/
def reread : Json → Tree
  | .null => null
  | .bool b => bool b
  | .integer n => integer n
  | .double x => ofDouble x
  | .string s => string (some s)
  | .array items => array (rereadItems items) true
  | .object members => object (rereadMembers members) true

def rereadItems : List Json → List Tree
  | [] => []
  | j :: rest => reread j :: rereadItems rest

def rereadMembers : List (String × Json) → List (Option String × Tree)
  | [] => []
  | (name, j) :: rest => (some name, reread j) :: rereadMembers rest
end

theorem rereadItems_eq (items : List Json) : rereadItems items = items.map reread := by
  induction items with
  | nil => rfl
  | cons j rest ih => rw [rereadItems, List.map_cons, ih]

theorem rereadMembers_eq (members : List (String × Json)) :
    rereadMembers members = members.map fun m => (some m.1, reread m.2) := by
  induction members with
  | nil => rfl
  | cons m rest ih => rw [rereadMembers, List.map_cons, ih]

theorem reread_array (items : List Json) :
    reread (.array items) = array (items.map reread) true := by
  rw [reread, rereadItems_eq]

theorem reread_object (members : List (String × Json)) :
    reread (.object members) = object (members.map fun m => (some m.1, reread m.2)) true := by
  rw [reread, rereadMembers_eq]

/-! ## Words -/

theorem scannedTo_null : ScannedTo .null null := by
  intro layout level rest steps _ enough
  obtain ⟨steps, rfl⟩ : ∃ n, steps = n + 1 := Nat.exists_eq_succ_of_ne_zero (by
    rintro rfl
    simp [chars] at enough)
  rw [chars]
  simp [scan, skipSpace, isSpace, scanWord, behind?]

theorem scannedTo_bool (b : Bool) : ScannedTo (.bool b) (bool b) := by
  intro layout level rest steps _ enough
  obtain ⟨steps, rfl⟩ : ∃ n, steps = n + 1 := Nat.exists_eq_succ_of_ne_zero (by
    rintro rfl
    cases b <;> simp [chars] at enough)
  cases b <;> simp [chars, scan, skipSpace, isSpace, scanWord, behind?]

/-! ## Arrays -/

/-- A document starts neither with white space nor with the end of an array. -/
theorem exists_chars (layout : Layout) (level : Nat) (j : Json) :
    ∃ c cs, chars layout level j = c :: cs ∧ isSpace c = false ∧ c ≠ ']' := by
  have number : ∀ cs, (scanNumber cs).isSome = true →
      ∃ c cs', cs = c :: cs' ∧ isSpace c = false ∧ c ≠ ']' := by
    intro cs number
    cases cs with
    | nil => simp [scanNumber, Text.digitRun] at number
    | cons c cs =>
      have starts := starts_of_scanNumber number
      exact ⟨c, cs, rfl, isSpace_of_starts starts, ne_of_starts starts (by decide) (by decide)⟩
  have alone : EndsNumber [] := by
    rintro _ ⟨⟩
  cases j with
  | null => exact ⟨'n', _, by rw [chars]; rfl, rfl, by decide⟩
  | bool b =>
    cases b with
    | false => exact ⟨'f', _, by rw [chars]; rfl, rfl, by decide⟩
    | true => exact ⟨'t', _, by rw [chars]; rfl, rfl, by decide⟩
  | integer n =>
    apply number
    have scanned := scanNumber_signed n alone
    rw [List.append_nil] at scanned
    rw [chars, scanned]
    rfl
  | double x =>
    rw [chars]
    split
    · apply number
      obtain ⟨negative, cs, text, l, scanned⟩ := x.exists_toChars
      have scanned := scanned negative [] alone
      rw [List.append_nil, ← text] at scanned
      rw [scanned]
      rfl
    · exact ⟨'n', _, rfl, rfl, by decide⟩
  | string s => exact ⟨'"', _, by rw [chars]; rfl, rfl, by decide⟩
  | array items =>
    cases items with
    | nil => exact ⟨'[', _, by rw [chars], rfl, by decide⟩
    | cons j rest => exact ⟨'[', _, by rw [chars]; rfl, rfl, by decide⟩
  | object members =>
    cases members with
    | nil => exact ⟨'{', _, by rw [chars], rfl, by decide⟩
    | cons m rest => exact ⟨'{', _, by rw [chars]; rfl, rfl, by decide⟩

theorem scanItems_append_of_all {front : List Char} (blank : ∀ c ∈ front, isSpace c = true)
    (steps : Nat) (cs : List Char) : scanItems steps (front ++ cs) = scanItems steps cs := by
  cases steps with
  | zero => rw [scanItems, scanItems]
  | succ steps => rw [scanItems, scanItems, scan_append_of_all blank]

theorem itemChars_cons (layout : Layout) (level : Nat) (j : Json) (items : List Json) :
    itemChars layout level (j :: items) =
      ',' :: (layout.lineBreak level ++ (chars layout level j ++ itemChars layout level items)) := by
  simp [itemChars]

/-- The items up to the bracket, each scanned to its tree. -/
theorem scanItems_chars {items : List Json} {trees : List Tree}
    (scanned : List.Forall₂ ScannedTo items trees) {j : Json} {t : Tree} (first : ScannedTo j t)
    (layout : Layout) (level below steps : Nat) (rest : List Char)
    (enough : (chars layout level j ++ itemChars layout level items).length < steps) :
    scanItems steps (chars layout level j ++ (itemChars layout level items ++
      (layout.lineBreak below ++ ']' :: rest))) = (t :: trees, true, rest) := by
  have blank : ∀ level, ∀ c ∈ layout.lineBreak level, isSpace c = true :=
    fun _ _ => isSpace_of_mem_lineBreak
  obtain ⟨steps, rfl⟩ := Nat.exists_eq_succ_of_ne_zero (Nat.ne_zero_of_lt enough)
  -- on the items behind the first one, which becomes the first one of the rest
  induction scanned generalizing j t steps with
  | nil =>
    rw [itemChars, List.append_nil] at enough
    rw [itemChars, List.nil_append, scanItems, first layout level _ steps
      (endsPart_lineBreak layout below (by decide) rest) (Nat.le_of_lt_succ enough)]
    simp only [skipSpace_append_of_all (blank below), skipSpace_cons_of_not (show isSpace ']' = false
      from rfl)]
  | @cons j' t' items trees second _ ih =>
    rw [itemChars_cons] at enough
    simp only [List.length_append, List.length_cons] at enough
    have here : (chars layout level j).length ≤ steps := by omega
    obtain ⟨steps, rfl⟩ : ∃ n, steps = n + 1 := Nat.exists_eq_succ_of_ne_zero (by omega)
    have later : (chars layout level j' ++ itemChars layout level items).length < steps + 1 := by
      rw [List.length_append]
      omega
    rw [itemChars_cons, List.cons_append, scanItems,
      first layout level _ (steps + 1) (endsPart_cons (by decide) _) here]
    simp only [skipSpace_cons_of_not (show isSpace ',' = false from rfl), List.append_assoc]
    rw [scanItems_append_of_all (blank level), ih second steps later]

theorem chars_array (layout : Layout) (level : Nat) (j : Json) (items : List Json)
    (rest : List Char) :
    chars layout level (.array (j :: items)) ++ rest =
      '[' :: (layout.lineBreak (level + 1) ++ (chars layout (level + 1) j ++
        (itemChars layout (level + 1) items ++ (layout.lineBreak level ++ ']' :: rest)))) := by
  simp [chars]

theorem scannedTo_array {items : List Json} {trees : List Tree}
    (scanned : List.Forall₂ ScannedTo items trees) : ScannedTo (.array items) (.array trees true) := by
  intro layout level rest steps _ enough
  cases scanned with
  | nil =>
    obtain ⟨steps, rfl⟩ : ∃ n, steps = n + 1 := Nat.exists_eq_succ_of_ne_zero (by
      rintro rfl
      simp [chars] at enough)
    rw [chars, List.cons_append, List.cons_append, scan, skipSpace_cons_of_not rfl]
    simp only [skipSpace_cons_of_not (show isSpace ']' = false from rfl), List.nil_append]
  | @cons j t items trees first tail =>
    have length := congrArg List.length (chars_array layout level j items [])
    simp only [List.append_nil, List.length_cons, List.length_append, List.length_nil] at length
    obtain ⟨steps, rfl⟩ : ∃ n, steps = n + 1 := Nat.exists_eq_succ_of_ne_zero (by omega)
    have inside : (chars layout (level + 1) j ++ itemChars layout (level + 1) items).length <
        steps := by
      rw [List.length_append]
      omega
    have all := scanItems_chars tail first layout (level + 1) level steps rest inside
    obtain ⟨c, cs, starts, solid, other⟩ := exists_chars layout (level + 1) j
    rw [starts, List.cons_append] at all
    rw [chars_array, scan, skipSpace_cons_of_not rfl]
    simp only [skipSpace_append_of_all fun _ => isSpace_of_mem_lineBreak, starts, List.cons_append,
      skipSpace_cons_of_not solid]
    split
    · rename_i same
      cases same
      exact absurd rfl other
    · rw [all]

/-! ## Documents -/

theorem scannedTo_reread {j : Json} (canonical : j.isCanonical = true) : ScannedTo j (reread j) := by
  induction j with
  | null => exact scannedTo_null
  | bool b => exact scannedTo_bool b
  | integer n => exact scannedTo_integer (by rwa [Json.isCanonical] at canonical)
  | double x => exact scannedTo_double (by rwa [Json.isCanonical] at canonical)
  | string s => exact scannedTo_string s
  | array items ih =>
    rw [reread_array]
    apply scannedTo_array
    rw [List.forall₂_map_right_iff, List.forall₂_same]
    exact fun j member => ih j member (Json.isCanonical_array.mp canonical j member)
  | object members ih =>
    rw [reread_object]
    apply scannedTo_object
    rw [List.forall₂_map_right_iff, List.forall₂_same]
    exact fun m member => ⟨rfl, ih m member ((Json.isCanonical_object.mp canonical).2 m member)⟩

theorem documentOf_render {j : Json} {t : Tree} (scanned : ScannedTo j t) (layout : Layout) :
    documentOf (j.render layout) = ⟨t, true⟩ := by
  have text := scanned layout 0 [] (2 * (chars layout 0 j).length + 2) (by rintro _ ⟨⟩) (by omega)
  rw [List.append_nil] at text
  rw [documentOf, Json.render, String.toList_ofList, documentOfChars, text]
  rfl

theorem areWhole_iff {trees : List Tree} :
    areWhole trees = true ↔ ∀ t ∈ trees, t.isWhole = true := by
  induction trees with
  | nil => simp [areWhole]
  | cons t rest ih => simp [areWhole, ih]

theorem haveWhole_iff {members : List (Option String × Tree)} :
    haveWhole members = true ↔ ∀ m ∈ members, m.2.isWhole = true := by
  induction members with
  | nil => simp [haveWhole]
  | cons m rest ih =>
    obtain ⟨name, t⟩ := m
    simp [haveWhole, ih]

theorem isWhole_literal (l : Literal) : l.tree.isWhole = true := by
  unfold Literal.tree
  dsimp only
  repeat' split
  all_goals rfl

theorem exists_ofDouble (x : Double) : ∃ l : Literal, ofDouble x = l.tree := by
  obtain ⟨negative, cs, text, l, number⟩ := x.exists_toChars
  have alone := number negative [] (by rintro _ ⟨⟩)
  rw [List.append_nil, ← text] at alone
  exact ⟨_, by rw [ofDouble, alone]⟩

theorem isWhole_reread (j : Json) : (reread j).isWhole = true := by
  induction j with
  | null => rfl
  | bool b => rfl
  | integer n => rfl
  | double x =>
    obtain ⟨l, same⟩ := exists_ofDouble x
    rw [reread, same]
    exact isWhole_literal l
  | string s => rfl
  | array items ih =>
    rw [reread_array, isWhole, Bool.and_true, areWhole_iff]
    intro t member
    obtain ⟨j, inside, rfl⟩ := List.mem_map.mp member
    exact ih j inside
  | object members ih =>
    rw [reread_object, isWhole, Bool.and_true, haveWhole_iff]
    intro t member
    obtain ⟨m, inside, rfl⟩ := List.mem_map.mp member
    exact ih m inside

end Tree

end Rollback
