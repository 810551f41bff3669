import Rollback.Json.Record

/-!
# Tagged data

A variant of a sum is named by a tag. The tag may stand among the members of the variant's own
record, or in an object of its own beside a member for the content. Either form may also be an
array with the tag in front. The members may come in any order: what stands in front of the tag is
kept until the tag is known.
-/

namespace Rollback

variable {κ α : Type}

namespace Reader

/-! ## A tag among the members -/

/-- Takes the tag out of the members. All others have to be values and are kept. -/
def pickTag (label : String) (tag : Reader κ) (place : Place) (seen : Option κ) :
    List (Option String × Tree) → Except Fault (Option κ × List (Option String × Tree))
  | [] => .ok (seen, [])
  | (none, _) :: _ => .error .syntaxError
  | (some name, t) :: rest =>
    if name = label then
      if seen.isSome then .error (.duplicateField label)
      else do
        let k ← tag place t
        pickTag label tag place (some k) rest
    else do
      let _ ← Tree.value place t
      let (k, left) ← pickTag label tag place seen rest
      return (k, (some name, t) :: left)

def withTag (label : String) (tag : Reader κ) : Reader (κ × Tree)
  | place, .object members closed => do
    let (k, left) ← pickTag label tag (← place.enter) none members
    let k ← Tree.finish closed k
    match k with
    | some k => .ok (k, .object left true)
    | none => .error (.missingField label)
  | place, .array (t :: rest) closed => do
    let inner ← place.enter
    let k ← tag inner t
    let _ ← Tree.values inner rest
    Tree.finish closed (k, .array rest true)
  | _, .array [] closed => if closed then .error (.missingField label) else .error .syntaxError
  | _, t => .error t.unexpected

/-- A variant whose tag stands among its members. -/
def tagged (label : String) (tag : Reader κ) (body : κ → Reader α) : Reader α := fun place t => do
  let (k, left) ← withTag label tag place t
  body k { place with buffered := true } left

/-! ## A tag beside the content -/

/-- The name of a variant alone: a string, or an object whose only member has that name and holds
null. Anything else stands where no name can. -/
def bareVariant (variants : List (String × α)) : Reader α
  | _, .string (some name) => variantOf variants name
  | place, .object ((some name, t) :: rest) closed => do
    let inner ← place.enter
    let a ← variantOf variants name
    unit inner t
    if rest.isEmpty && closed then .ok a else .error .syntaxError
  | _, _ => .error .syntaxError

/-- What was met of a tag and its content. -/
structure Pair (κ α : Type) where
  tag : Option κ := none
  /-- Content that came in front of the tag. -/
  held : Option Tree := none
  content : Option α := none

variable (label contentLabel : String) (variants : List (String × κ)) (body : κ → Reader α)

/-- Reads the members in their order and passes over those with other names. -/
def pickPair (place : Place) (met : Pair κ α) :
    List (Option String × Tree) → Except Fault (Pair κ α)
  | [] => .ok met
  | (none, _) :: _ => .error .syntaxError
  | (some name, t) :: rest =>
    if name = label then
      if met.tag.isSome then .error (.duplicateField label)
      else do
        let k ← bareVariant variants place t
        let content ← met.held.mapM fun held => body k { place with buffered := true } held
        pickPair place { met with tag := some k, content } rest
    else if name = contentLabel then
      if met.held.isSome || met.content.isSome then .error (.duplicateField contentLabel)
      else match met.tag with
        | some k => do
          let a ← body k place t
          pickPair place { met with content := some a } rest
        | none => do
          let _ ← Tree.value place t
          pickPair place { met with held := some t } rest
    else do
      t.ignore
      pickPair place met rest

/-- A variant with its tag and its content beside each other; a bare one needs no content. In an
array the tag is a text and the content has to follow. -/
def beside (bare : κ → Option α) : Reader α
  | place, .object members closed => do
    let met ← pickPair label contentLabel variants body (← place.enter) {} members
    let met ← Tree.finish closed met
    match met.tag with
    | none => .error (.missingField label)
    | some k =>
      match met.content.or (bare k) with
      | some a => .ok a
      | none => .error (.missingField contentLabel)
  | place, .array (t :: u :: rest) closed => do
    let inner ← place.enter
    let k ← variant variants inner t
    let a ← body k inner u
    Shape.readEnd place closed rest
    return a
  | place, .array [t] closed => do
    let _ ← variant variants (← place.enter) t
    if closed then .error .mismatch else .error .syntaxError
  | _, .array [] closed => if closed then .error .mismatch else .error .syntaxError
  | _, t => .error t.unexpected

end Reader

end Rollback
