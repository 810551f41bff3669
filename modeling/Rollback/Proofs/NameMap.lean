import Mathlib.Data.List.Nodup
import Mathlib.Data.List.Perm.Basic
import Rollback.Json.Basic

/-!
# Maps and their entries

A map is determined by the list of its entries, which has each key once.
-/

namespace Rollback

section Entries

variable {α β : Type} [Ord α] [Std.TransOrd α]

theorem toList_nodup (m : Std.ExtTreeMap α β) : m.toList.Nodup := by
  refine Std.ExtTreeMap.distinct_keys_toList.imp ?_
  rintro p q different rfl
  exact different Std.ReflCmp.compare_self

/-- A new key adds its entry to those of a map. -/
theorem toList_insert_perm [Std.LawfulEqOrd α] {m : Std.ExtTreeMap α β} {a : α} (fresh : a ∉ m)
    (b : β) : (m.insert a b).toList.Perm ((a, b) :: m.toList) := by
  rw [List.perm_ext_iff_of_nodup (toList_nodup _) (List.nodup_cons.mpr ⟨?_, toList_nodup m⟩)]
  · rintro ⟨key, value⟩
    simp only [List.mem_cons, Std.ExtTreeMap.mem_toList_iff_getElem?_eq_some,
      Std.ExtTreeMap.getElem?_insert, Std.LawfulEqCmp.compare_eq_iff_eq, Prod.mk.injEq]
    by_cases same : a = key
    · subst same
      simp [getElem?_neg m a fresh, eq_comm]
    · simp [same, Ne.symm same]
  · rw [Std.ExtTreeMap.mem_toList_iff_getElem?_eq_some, getElem?_neg m a fresh]
    simp

/-- Without a key a map has the entries of the other keys. -/
theorem toList_erase_perm [Std.LawfulEqOrd α] [DecidableEq α] (m : Std.ExtTreeMap α β) (a : α) :
    (m.erase a).toList.Perm (m.toList.filter (·.1 ≠ a)) := by
  rw [List.perm_ext_iff_of_nodup (toList_nodup _) ((toList_nodup m).filter _)]
  rintro ⟨key, value⟩
  simp only [List.mem_filter, Std.ExtTreeMap.mem_toList_iff_getElem?_eq_some,
    Std.ExtTreeMap.getElem?_erase, Std.LawfulEqCmp.compare_eq_iff_eq]
  by_cases same : a = key
  · simp [same]
  · simp [same, Ne.symm same]

end Entries

namespace NameMap

variable {α β : Type}

/-- Maps with the same names list them in the same order. -/
theorem keys_congr {m : NameMap α} {n : NameMap β} (same : ∀ name, name ∈ m ↔ name ∈ n) :
    m.keys = n.keys := by
  have perm : m.keys.Perm n.keys := by
    rw [List.perm_ext_iff_of_nodup Std.ExtTreeMap.nodup_keys Std.ExtTreeMap.nodup_keys]
    intro name
    rw [Std.ExtTreeMap.mem_keys, Std.ExtTreeMap.mem_keys]
    exact same name
  refine perm.eq_of_pairwise ?_ Std.ExtTreeMap.ordered_keys Std.ExtTreeMap.ordered_keys
  intro a b _ _ lower upper
  have swapped := Std.OrientedCmp.gt_of_lt upper
  rw [lower] at swapped
  contradiction

theorem getElem?_ofList_map {names : List String} (distinct : names.Nodup) (f : String → α)
    (name : String) :
    (Std.ExtTreeMap.ofList (names.map fun n => (n, f n)) : NameMap α)[name]? =
      if name ∈ names then some (f name) else none := by
  split
  · apply Std.ExtTreeMap.getElem?_ofList_of_mem (k := name) (by simp)
    · rw [List.pairwise_map]
      exact distinct.imp fun different => by simpa using different
    · exact List.mem_map.mpr ⟨name, ‹_›, rfl⟩
  · apply Std.ExtTreeMap.getElem?_ofList_of_contains_eq_false
    simpa using ‹_›

/-- The entries of a map in any order make the map. -/
theorem ofList_of_perm {m : NameMap α} {entries : List (String × α)} (listed : entries.Perm m.toList) :
    Std.ExtTreeMap.ofList entries = m := by
  have distinct : entries.Pairwise fun a b => ¬ compare a.1 b.1 = .eq :=
    (listed.pairwise_iff fun different same =>
      different (Std.LawfulEqCmp.compare_eq_iff_eq.mpr (Std.LawfulEqCmp.eq_of_compare same).symm)).mpr
      Std.ExtTreeMap.distinct_keys_toList
  apply Std.ExtTreeMap.ext_getElem?
  intro name
  cases found : m[name]? with
  | some a =>
    apply Std.ExtTreeMap.getElem?_ofList_of_mem (k := name) (by simp) distinct
    exact listed.mem_iff.mpr (Std.ExtTreeMap.mem_toList_iff_getElem?_eq_some.mpr found)
  | none =>
    apply Std.ExtTreeMap.getElem?_ofList_of_contains_eq_false
    rw [(listed.map _).contains_eq, Std.ExtTreeMap.map_fst_toList_eq_keys,
      Std.ExtTreeMap.contains_keys, Std.ExtTreeMap.contains_eq_isSome_getElem?, found]
    rfl

theorem ofList_toList (m : NameMap α) : Std.ExtTreeMap.ofList m.toList = m :=
  ofList_of_perm (.refl _)

/-- A map lists its entries in ascending order of their names. -/
theorem toList_ascending (m : NameMap α) : m.toList.Pairwise fun a b => a.1 < b.1 := by
  refine Std.ExtTreeMap.ordered_keys_toList.imp ?_
  intro a b lower
  exact compareOfLessAndEq_eq_lt.mp lower

/-- Entries in ascending order of their names are listed as they were given. -/
theorem toList_ofList {entries : List (String × α)}
    (ascending : (entries.map (·.1)).Pairwise (· < ·)) :
    (Std.ExtTreeMap.ofList entries : NameMap α).toList = entries := by
  have ordered := List.pairwise_map.mp ascending
  have distinct : entries.Pairwise fun a b => ¬ compare a.1 b.1 = .eq := by
    refine ordered.imp fun {a b} lower same => ?_
    rw [Std.LawfulEqCmp.compare_eq_iff_eq] at same
    exact String.lt_irrefl _ (same ▸ lower)
  have nodup : entries.Nodup := by
    refine ordered.imp ?_
    rintro a _ lower rfl
    exact String.lt_irrefl _ lower
  have perm : (Std.ExtTreeMap.ofList entries : NameMap α).toList.Perm entries := by
    rw [List.perm_ext_iff_of_nodup (toList_nodup _) nodup]
    rintro ⟨name, a⟩
    rw [Std.ExtTreeMap.mem_toList_iff_getElem?_eq_some]
    constructor
    · intro found
      have present : (entries.map (·.1)).contains name = true := by
        by_contra absent
        rw [Std.ExtTreeMap.getElem?_ofList_of_contains_eq_false (by simpa using absent)] at found
        cases found
      obtain ⟨⟨_, b⟩, member, rfl⟩ := List.mem_map.mp (List.contains_iff_mem.mp present)
      rw [Std.ExtTreeMap.getElem?_ofList_of_mem (k := _) (by simp) distinct member] at found
      cases found
      exact member
    · exact Std.ExtTreeMap.getElem?_ofList_of_mem (k := name) (by simp) distinct
  refine perm.eq_of_pairwise ?_ (toList_ascending _) ordered
  intro a b _ _ lower upper
  exact absurd (String.lt_trans lower upper) (String.lt_irrefl _)

end NameMap

end Rollback
