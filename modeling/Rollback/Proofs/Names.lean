import Rollback.Graph
import Rollback.Proofs.NameMap
import Rollback.Proofs.Text.Bytewise

/-!
# Names in order

Sets and maps list their names in ascending order of the bytes. There is one such list for the same
names (`Enumerates.eq_iff`).
-/

namespace Rollback

/-- All names with a property, each once, in ascending order of the bytes. -/
structure Enumerates (names : List String) (holds : String → Prop) : Prop where
  ascending : names.Pairwise fun a b => Text.bytes a < Text.bytes b
  mem_iff : ∀ name, name ∈ names ↔ holds name

theorem NameSet.enumerates (names : NameSet) : Enumerates names.toList (· ∈ names) where
  ascending := by
    refine (Std.ExtTreeSet.ordered_toList (t := names)).imp ?_
    intro a b lower
    exact Text.bytes_lt_iff.mpr (compareOfLessAndEq_eq_lt.mp lower)
  mem_iff _ := Std.ExtTreeSet.mem_toList

theorem NameMap.enumerates {α : Type} (m : NameMap α) : Enumerates m.keys (· ∈ m) where
  ascending := by
    refine (Std.ExtTreeMap.ordered_keys (t := m)).imp ?_
    intro a b lower
    exact Text.bytes_lt_iff.mpr (compareOfLessAndEq_eq_lt.mp lower)
  mem_iff _ := Std.ExtTreeMap.mem_keys

namespace Enumerates

variable {names others : List String} {p q : String → Prop}

theorem congr (lists : Enumerates names p) (same : ∀ name, p name ↔ q name) :
    Enumerates names q :=
  ⟨lists.ascending, fun name => (lists.mem_iff name).trans (same name)⟩

theorem nodup (lists : Enumerates names p) : names.Nodup := by
  refine lists.ascending.imp ?_
  rintro name _ lower rfl
  exact List.lt_irrefl _ lower

theorem eq_iff (lists : Enumerates names p) (lists' : Enumerates others q) :
    names = others ↔ ∀ name, p name ↔ q name := by
  constructor
  · rintro rfl name
    exact (lists.mem_iff name).symm.trans (lists'.mem_iff name)
  · intro same
    have perm : names.Perm others := by
      rw [List.perm_ext_iff_of_nodup lists.nodup lists'.nodup]
      intro name
      rw [lists.mem_iff, lists'.mem_iff, same]
    refine perm.eq_of_pairwise ?_ lists.ascending lists'.ascending
    intro a b _ _ lower upper
    exact absurd lower (List.lt_asymm upper)

end Enumerates

end Rollback
