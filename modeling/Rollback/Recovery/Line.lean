import Rollback.Header

/-!
# Recovery lines

A line names, for each instance that has to go back, the checkpoint that it restores. An instance
that is absent or named with the nil id keeps its state.
-/

namespace Rollback

/-- The checkpoints to restore, by instance. -/
structure Line where
  selections : NameMap CheckpointId
  deriving DecidableEq

namespace Line

def empty : Line := ⟨∅⟩

instance : Inhabited Line := ⟨empty⟩

def checkpointFor (line : Line) (name : String) : Option CheckpointId :=
  line.selections[name]?.filter (· ≠ .nil)

/-- The instances that have to restore a checkpoint, in ascending order. -/
def affected (line : Line) : List String :=
  (line.selections.toList.filter (·.2 ≠ .nil)).map (·.1)

theorem mem_affected {line : Line} {name : String} :
    name ∈ line.affected ↔ (line.checkpointFor name).isSome = true := by
  simp only [affected, checkpointFor, List.mem_map, List.mem_filter]
  constructor
  · rintro ⟨⟨n, id⟩, ⟨hm, hid⟩, rfl⟩
    rw [Std.ExtTreeMap.mem_toList_iff_getElem?_eq_some] at hm
    simpa [hm] using hid
  · intro h
    cases hs : line.selections[name]? with
    | none => simp [hs] at h
    | some id =>
      refine ⟨(name, id), ⟨Std.ExtTreeMap.mem_toList_iff_getElem?_eq_some.mpr hs, ?_⟩, rfl⟩
      by_cases hid : id = .nil <;> simp_all

def json (line : Line) : Json := Header.dependenciesJson line.selections

def reader : Reader Line := (Reader.nameMap Reader.checkpointId).map (⟨·⟩)

end Line

end Rollback
