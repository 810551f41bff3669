import Rollback.Text.Numeral

/-!
# Checkpoint ids

A checkpoint is named by a 128-bit number. Its text has 32 hexadecimal digits in five groups of
8, 4, 4, 4 and 12; the reader also takes the digits without hyphens, and the grouped form in
braces or behind `urn:uuid:`. Zero is the nil id, which names no checkpoint.
-/

namespace Rollback

/-- The name of a checkpoint. -/
structure CheckpointId where
  value : Nat
  isLt : value < UInt64.size * UInt64.size
  deriving DecidableEq, Repr

namespace CheckpointId

/-- The id that names no checkpoint. -/
def nil : CheckpointId := ⟨0, by decide⟩

instance : Inhabited CheckpointId := ⟨nil⟩

def isNil (id : CheckpointId) : Bool := id == nil

instance : Ord CheckpointId := ⟨fun a b => compare a.value b.value⟩

theorem compare_eq (a b : CheckpointId) : compare a b = compare a.value b.value := rfl

instance : Std.TransOrd CheckpointId where
  eq_swap {a b} := Nat.compare_swap b.value a.value |>.symm
  isLE_trans {a b c} h₁ h₂ := by
    rw [compare_eq, Nat.isLE_compare] at *
    exact Nat.le_trans h₁ h₂

instance : Std.LawfulEqOrd CheckpointId where
  compare_self {a} := by simp
  eq_of_compare {a b} h := by
    rw [compare_eq, Nat.compare_eq_eq] at h
    cases a; cases b
    simp_all

/-! ## Text -/

/-- Hyphens after 8, 12, 16 and 20 of the 32 digits. -/
def group (digits : List Char) : List Char :=
  digits.take 8 ++ '-' :: (digits.drop 8).take 4 ++ '-' :: (digits.drop 12).take 4 ++
    '-' :: (digits.drop 16).take 4 ++ '-' :: digits.drop 20

/-- The digits of a grouped text; nothing if a hyphen is not where it belongs. -/
def ungroup (cs : List Char) : Option (List Char) :=
  let digits := cs.take 8 ++ (cs.drop 9).take 4 ++ (cs.drop 14).take 4 ++ (cs.drop 19).take 4 ++
    cs.drop 24
  if cs.length = 36 ∧ group digits = cs then some digits else none

def ofDigits? (digits : List Char) : Option CheckpointId :=
  if digits.length = 32 then
    (Text.ofHexDigits 0 digits).bind fun n => if h : _ then some ⟨n, h⟩ else none
  else none

/-- The grouped digits between braces. -/
def unbrace : List Char → Option (List Char)
  | '{' :: cs => if cs.getLast? = some '}' then ungroup cs.dropLast else none
  | _ => none

/-- The grouped digits behind `urn:uuid:`, which may be in any case. -/
def ofUrn (cs : List Char) : Option (List Char) :=
  if (cs.take 9).map Char.toLower = "urn:uuid:".toList then ungroup (cs.drop 9) else none

/-- Reads an id in any of its four forms. -/
def ofChars? (cs : List Char) : Option CheckpointId :=
  let digits := if cs.length = 32 then some cs else (ungroup cs).or ((unbrace cs).or (ofUrn cs))
  digits.bind ofDigits?

def ofString? (s : String) : Option CheckpointId := ofChars? s.toList

def toChars (id : CheckpointId) : List Char := group (Text.hexDigits 32 id.value)

def toString (id : CheckpointId) : String := String.ofList id.toChars

instance : ToString CheckpointId := ⟨toString⟩

end CheckpointId

end Rollback
