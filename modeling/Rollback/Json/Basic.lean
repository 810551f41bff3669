import Rollback.Double.Basic
import Std.Data.ExtTreeMap

/-!
# JSON

`Json` is a document to be written, with the members of an object in the order in which they are
written. `Value` is what a document means: members in ascending order of their names without
repetition, whole numbers that fit 64 bits, finite fractions. Two values are equal exactly when
they are the same value.
-/

namespace Rollback

/-- A map from names, which are ordered by their code points. -/
abbrev NameMap (α : Type) := Std.ExtTreeMap String α

/-- A document to be written. -/
inductive Json where
  | null
  | bool (b : Bool)
  | integer (n : Int)
  | double (x : Double)
  | string (s : String)
  | array (items : List Json)
  | object (members : List (String × Json))

namespace Json

instance : Inhabited Json := ⟨null⟩

/-- Whether a whole number is one that a value can hold: one of 64 bits, with a sign or without. -/
def fits (n : Int) : Bool := -9223372036854775808 ≤ n && n < 18446744073709551616

def ascending : List String → Bool
  | a :: b :: rest => a < b && ascending (b :: rest)
  | _ => true

mutual
/-- Whether a document is the written form of a value. -/
def isCanonical : Json → Bool
  | null => true
  | bool _ => true
  | integer n => fits n
  | double x => x.isFinite
  | string _ => true
  | array items => areCanonical items
  | object members => ascending (members.map (·.1)) && haveCanonical members

def areCanonical : List Json → Bool
  | [] => true
  | j :: rest => isCanonical j && areCanonical rest

def haveCanonical : List (String × Json) → Bool
  | [] => true
  | (_, j) :: rest => isCanonical j && haveCanonical rest
end

mutual
def depth : Json → Nat
  | array items => depthOfItems items + 1
  | object members => depthOfMembers members + 1
  | _ => 0

def depthOfItems : List Json → Nat
  | [] => 0
  | j :: rest => max (depth j) (depthOfItems rest)

def depthOfMembers : List (String × Json) → Nat
  | [] => 0
  | (_, j) :: rest => max (depth j) (depthOfMembers rest)
end

mutual
/-- Equal as data: numbers with a fraction are compared as numbers. -/
def agrees : Json → Json → Bool
  | null, null => true
  | bool a, bool b => a == b
  | integer a, integer b => a == b
  | double a, double b => a.equals b
  | string a, string b => a == b
  | array as, array bs => agreeItems as bs
  | object as, object bs => agreeMembers as bs
  | _, _ => false

def agreeItems : List Json → List Json → Bool
  | [], [] => true
  | a :: as, b :: bs => agrees a b && agreeItems as bs
  | _, _ => false

def agreeMembers : List (String × Json) → List (String × Json) → Bool
  | [], [] => true
  | (k, a) :: as, (l, b) :: bs => k == l && agrees a b && agreeMembers as bs
  | _, _ => false
end

theorem areCanonical_iff {items : List Json} :
    areCanonical items = true ↔ ∀ j ∈ items, isCanonical j = true := by
  induction items with
  | nil => simp [areCanonical]
  | cons j rest ih => simp [areCanonical, ih]

theorem haveCanonical_iff {members : List (String × Json)} :
    haveCanonical members = true ↔ ∀ m ∈ members, isCanonical m.2 = true := by
  induction members with
  | nil => simp [haveCanonical]
  | cons m rest ih => obtain ⟨k, j⟩ := m; simp [haveCanonical, ih]

theorem ascending_of_pairwise {names : List String} (h : names.Pairwise (· < ·)) :
    ascending names = true := by
  induction names with
  | nil => rfl
  | cons a rest ih =>
    cases rest with
    | nil => rfl
    | cons b rest =>
      rw [List.pairwise_cons] at h
      simp [ascending, h.1 b (by simp), ih h.2]

end Json

/-- What a document means. -/
structure Value where
  json : Json
  canonical : json.isCanonical = true

namespace Value

def null : Value := ⟨.null, rfl⟩

instance : Inhabited Value := ⟨null⟩

def bool (b : Bool) : Value := ⟨.bool b, rfl⟩

def string (s : String) : Value := ⟨.string s, rfl⟩

def integer? (n : Int) : Option Value :=
  if h : Json.fits n = true then some ⟨.integer n, h⟩ else none

/-- The number with a fraction; what is not finite has no form and becomes null. -/
def double (x : Double) : Value := if h : x.isFinite = true then ⟨.double x, h⟩ else null

def array (items : List Value) : Value where
  json := .array (items.map (·.json))
  canonical := by
    simp only [Json.isCanonical, Json.areCanonical_iff, List.mem_map]
    rintro j ⟨v, _, rfl⟩
    exact v.canonical

def object (members : NameMap Value) : Value where
  json := .object (members.toList.map fun m => (m.1, m.2.json))
  canonical := by
    simp only [Json.isCanonical, Bool.and_eq_true, Json.haveCanonical_iff, List.mem_map]
    refine ⟨Json.ascending_of_pairwise ?_, ?_⟩
    · have h := Std.ExtTreeMap.ordered_keys_toList (t := members)
      simp only [List.map_map, List.pairwise_map]
      refine h.imp ?_
      intro a b hab
      exact compareOfLessAndEq_eq_lt.mp hab
    · rintro m ⟨e, _, rfl⟩
      exact e.2.canonical

def agrees (v w : Value) : Bool := v.json.agrees w.json

theorem ext {v w : Value} (h : v.json = w.json) : v = w := by
  cases v; cases w; simp_all

end Value

end Rollback
