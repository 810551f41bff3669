import Rollback.Error

/-!
# Fields

A snapshot keeps the fields of an object as values by name. A live value becomes a field if it has
a form as JSON; a field is taken back out of the map with the type that its owner wants.
-/

namespace Rollback

/-- Captured values by the names of their fields. -/
abbrev Fields := NameMap Value

/-! ## From live data to fields -/

/-- Live data of an object. -/
inductive Datum where
  | absent
  | bool (b : Bool)
  | integer (n : Int)
  | double (x : Double)
  | text (s : String)
  | list (items : List Datum)
  | map (entries : List (Datum × Datum))
  | value (v : Value)

namespace Datum

/-- The name that a key of a map stands under: texts, whole numbers and truth values have one. -/
def name? : Datum → Option String
  | text s => some s
  | integer n => some (String.ofList (Text.signed n))
  | bool b => some (if b then "true" else "false")
  | _ => none

mutual
/-- The value that stands for live data. A number that is not finite becomes null. -/
def capture : Datum → Except CaptureFault Value
  | absent => .ok .null
  | bool b => .ok (.bool b)
  | integer n => match Value.integer? n with
    | some v => .ok v
    | none => .error .numberOutOfRange
  | double x => .ok (.double x)
  | text s => .ok (.string s)
  | list items => do return .array (← captureItems items)
  | map entries => do return .object (← captureEntries ∅ entries)
  | value v => .ok v

def captureItems : List Datum → Except CaptureFault (List Value)
  | [] => .ok []
  | d :: rest => do
    let v ← capture d
    return v :: (← captureItems rest)

def captureEntries (seen : NameMap Value) :
    List (Datum × Datum) → Except CaptureFault (NameMap Value)
  | [] => .ok seen
  | (key, d) :: rest =>
    match key.name? with
    | none => .error .keyNotText
    | some name => do
      let v ← capture d
      captureEntries (seen.insert name v) rest
end

/-- The field for live data: data without a form is its owner's mistake. -/
def field (d : Datum) : Outcome Value :=
  match d.capture with
  | .ok v => .ok v
  | .error cause => .error (.notCapturable cause)

end Datum

/-! ## From fields to live data -/

/-- What an owner wants a field to hold. -/
inductive FieldType where
  | anything
  /-- A whole number from `low` up to but without `high`. -/
  | integer (label : String) (low high : Int)
  | bool
  | text
  | optionalText
  | list (item : FieldType)
  | map (item : FieldType)
  deriving DecidableEq, Repr

namespace FieldType

def u64 : FieldType := integer "u64" 0 18446744073709551616
def i64 : FieldType := integer "i64" (-9223372036854775808) 9223372036854775808
def u8 : FieldType := integer "u8" 0 256

/-- The type that a declaration names; it takes any value if it names none of these. -/
def named : String → FieldType
  | "u64" => u64
  | "i64" => i64
  | "u8" => u8
  | "bool" => bool
  | "string" => text
  | "opt_string" => optionalText
  | "u64_list" => list u64
  | "u64_map" => map u64
  | _ => anything

def label : FieldType → String
  | anything => "any value"
  | integer label .. => label
  | bool => "a boolean"
  | text | optionalText => "a string"
  | list _ => "a sequence"
  | map _ => "a map"

def describe : Json → String
  | .null => "null"
  | .bool b => "boolean " ++ Fault.ticked (if b then "true" else "false")
  | .integer n => "integer " ++ Fault.ticked (String.ofList (Text.signed n))
  | .double x => "floating point " ++ Fault.ticked x.toString
  | .string s => "string " ++ Text.quoted s
  | .array _ => "sequence"
  | .object _ => "map"

/-- Passes if every one of the parts passes, else with the first fault. -/
def checkAll (check : Json → Except FieldFault Unit) : List Json → Except FieldFault Unit
  | [] => .ok ()
  | j :: rest => do
    check j
    checkAll check rest

def check : FieldType → Json → Except FieldFault Unit
  | anything, _ => .ok ()
  | integer label low high, .integer n =>
    if low ≤ n ∧ n < high then .ok () else .error (.outOfRange n label)
  | bool, .bool _ => .ok ()
  | text, .string _ => .ok ()
  | optionalText, .string _ => .ok ()
  | optionalText, .null => .ok ()
  | list item, .array js => checkAll item.check js
  | map item, .object ms => checkAll item.check (ms.map (·.2))
  | type, j => .error (.wrongType (describe j) type.label)

end FieldType

/-- Takes a field out of the map. It is gone from the map also if it has another type. -/
def Fields.take (fields : Fields) (name : String) (type : FieldType) : Outcome Value × Fields :=
  match fields[name]? with
  | none => (.error (.fieldMissing name), fields)
  | some v =>
    let outcome := match type.check v.json with
      | .ok () => .ok v
      | .error cause => .error (.wrongField cause)
    (outcome, fields.erase name)

/-- Puts every one of the given fields in place of one of the same name. -/
def Fields.update (fields changes : Fields) : Fields :=
  changes.toList.foldl (fun all (name, v) => all.insert name v) fields

def Fields.json (fields : Fields) : Json := (Value.object fields).json

def Reader.fields : Reader Fields := Reader.nameMap Reader.value

end Rollback
