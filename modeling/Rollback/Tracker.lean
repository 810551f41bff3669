import Rollback.Header

/-!
# Dependency trackers

Every data message carries the id of its sender's newest checkpoint. A tracker holds the id that
came last from each peer, whatever it was before, and the id in front of the latest change.
-/

namespace Rollback

/-- The checkpoint that came last from each peer, and the one in front of the latest change. -/
structure Tracker where
  current : Dependencies
  earlier : Dependencies

namespace Tracker

def empty : Tracker := ⟨∅, ∅⟩

instance : Inhabited Tracker := ⟨empty⟩

/-- The last id wins; ids are not compared otherwise. -/
def update (t : Tracker) (peer : String) (id : CheckpointId) : Tracker where
  current := t.current.insert peer id
  earlier := match t.current[peer]? with
    | some old => if old = id then t.earlier else t.earlier.insert peer old
    | none => t.earlier

/-- Starts again from the dependencies of a checkpoint. -/
def overwrite (_ : Tracker) (dependencies : Dependencies) : Tracker := ⟨dependencies, ∅⟩

def dependency? (t : Tracker) (peer : String) : Option CheckpointId := t.current[peer]?

/-- The id in front of the latest change, nil if there was none. -/
def previous (t : Tracker) (peer : String) : CheckpointId := t.earlier[peer]?.getD .nil

theorem dependency?_update (t : Tracker) (peer other : String) (id : CheckpointId) :
    (t.update peer id).dependency? other =
      if peer = other then some id else t.dependency? other := by
  simp [dependency?, update, Std.ExtTreeMap.getElem?_insert]

theorem previous_update (t : Tracker) (peer other : String) (id : CheckpointId) :
    (t.update peer id).previous other =
      match t.dependency? peer with
      | some old => if peer = other ∧ old ≠ id then old else t.previous other
      | none => t.previous other := by
  by_cases hp : peer = other
  · subst hp
    cases h : t.current[peer]? with
    | none => simp [dependency?, previous, update, h]
    | some old => by_cases ho : old = id <;> simp [dependency?, previous, update, h, ho]
  · cases h : t.current[peer]? with
    | none => simp [dependency?, previous, update, h]
    | some old =>
      by_cases ho : old = id <;>
        simp [dependency?, previous, update, h, ho, hp, Std.ExtTreeMap.getElem?_insert]

end Tracker

end Rollback
