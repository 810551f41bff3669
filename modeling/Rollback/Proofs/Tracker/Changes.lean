import Mathlib.Data.List.Destutter
import Rollback.Proofs.Text.Hexadecimal
import Rollback.Tracker

/-!
# What a tracker keeps of its changes

Of all that it was told of a peer a tracker keeps two ids. They are the last two that the peer had
since the dependencies were replaced as a whole, where an id that is told again at once counts as one
(`run_keeps`). What is told of other peers changes neither.
-/

namespace Rollback.Tracker

variable {t : Tracker} {peer : String} {ids : List CheckpointId}

/-- What a tracker is told. -/
inductive Change where
  | update (peer : String) (id : CheckpointId)
  | overwrite (dependencies : Dependencies)

def apply (t : Tracker) : Change → Tracker
  | .update peer id => t.update peer id
  | .overwrite dependencies => t.overwrite dependencies

def run (t : Tracker) (changes : List Change) : Tracker := changes.foldl apply t

/-- The ids of a peer after one more change, if these were the ones before. -/
def Change.follow (peer : String) (ids : List CheckpointId) : Change → List CheckpointId
  | .update other id => if other = peer then ids ++ [id] else ids
  | .overwrite dependencies => dependencies[peer]?.toList

/-- The ids that a peer had since the latest replacement, one for each change, the oldest first. -/
def idsOf (peer : String) (changes : List Change) : List CheckpointId :=
  changes.foldl (Change.follow peer) []

/-- The ids that a peer had since the latest replacement, with equal neighbours merged. -/
def history (peer : String) (changes : List Change) : List CheckpointId :=
  (idsOf peer changes).destutter (· ≠ ·)

/-! ## Merged lists -/

section Merging

variable {α : Type} [DecidableEq α]

theorem destutter'_concat (first last : α) (l : List α) :
    (l ++ [last]).destutter' (· ≠ ·) first =
      if (l.destutter' (· ≠ ·) first).getLast? = some last then l.destutter' (· ≠ ·) first
      else l.destutter' (· ≠ ·) first ++ [last] := by
  induction l generalizing first with
  | nil => by_cases same : first = last <;> simp [same]
  | cons a l ih =>
    by_cases same : first = a
    · subst same
      simpa using ih first
    · have kept : (l.destutter' (· ≠ ·) a) ≠ [] := List.destutter'_ne_nil _ _
      simp only [List.cons_append, List.destutter'_cons, ne_eq, same, not_false_eq_true, if_true]
      rw [ih a, List.getLast?_cons_of_ne_nil kept]
      split <;> rfl

/-- A value behind a list is merged with the last one of it or stands for itself. -/
theorem destutter_concat (l : List α) (last : α) :
    (l ++ [last]).destutter (· ≠ ·) =
      if (l.destutter (· ≠ ·)).getLast? = some last then l.destutter (· ≠ ·)
      else l.destutter (· ≠ ·) ++ [last] := by
  cases l with
  | nil => simp
  | cons a l => exact destutter'_concat a last l

end Merging

/-! ## Changes -/

/-- The tracker has the last two of these ids. -/
structure Keeps (t : Tracker) (peer : String) (history : List CheckpointId) : Prop where
  dependency : t.dependency? peer = history.getLast?
  previous : t.previous peer = history.dropLast.getLast?.getD .nil

theorem keeps_empty (peer : String) : empty.Keeps peer [] :=
  ⟨by simp [empty, dependency?], by simp [empty, Tracker.previous]⟩

theorem Keeps.update_other (keeps : t.Keeps peer ids) {other : String} (different : other ≠ peer)
    (id : CheckpointId) : (t.update other id).Keeps peer ids := by
  refine ⟨?_, ?_⟩
  · rw [dependency?_update, if_neg different, keeps.dependency]
  · rw [previous_update, ← keeps.previous]
    split <;> simp [different]

/-- The next id of the peer becomes the last one, and the one in front of it is kept only if it is
another one. -/
theorem Keeps.update (keeps : t.Keeps peer ids) (id : CheckpointId) :
    (t.update peer id).Keeps peer (if ids.getLast? = some id then ids else ids ++ [id]) := by
  by_cases again : ids.getLast? = some id
  · rw [if_pos again]
    refine ⟨?_, ?_⟩
    · rw [dependency?_update, if_pos rfl, again]
    · rw [previous_update, keeps.dependency, again, ← keeps.previous]
      simp
  · rw [if_neg again]
    refine ⟨?_, ?_⟩
    · rw [dependency?_update, if_pos rfl, List.getLast?_concat]
    · rw [previous_update, keeps.dependency, List.dropLast_concat]
      cases last : ids.getLast? with
      | none =>
        rw [List.getLast?_eq_none_iff] at last
        rw [keeps.previous, last]
        rfl
      | some old =>
        have changed : old ≠ id := fun same => again (same ▸ last)
        simp [changed]

theorem keeps_overwrite (t : Tracker) (dependencies : Dependencies) (peer : String) :
    (t.overwrite dependencies).Keeps peer dependencies[peer]?.toList := by
  refine ⟨?_, ?_⟩
  · cases found : dependencies[peer]? <;> simp [dependency?, overwrite, found]
  · cases found : dependencies[peer]? <;> simp [Tracker.previous, overwrite]

theorem Keeps.apply (keeps : t.Keeps peer (ids.destutter (· ≠ ·))) (change : Change) :
    (t.apply change).Keeps peer ((change.follow peer ids).destutter (· ≠ ·)) := by
  cases change with
  | update other id =>
    by_cases same : other = peer
    · subst same
      rw [Change.follow, if_pos rfl, destutter_concat]
      exact keeps.update id
    · rw [Change.follow, if_neg same]
      exact keeps.update_other same id
  | overwrite dependencies =>
    have whole : dependencies[peer]?.toList.destutter (· ≠ ·) = dependencies[peer]?.toList := by
      cases dependencies[peer]? <;> simp
    rw [Change.follow, whole]
    exact keeps_overwrite t dependencies peer

theorem Keeps.run (keeps : t.Keeps peer (ids.destutter (· ≠ ·))) (changes : List Change) :
    (t.run changes).Keeps peer ((changes.foldl (Change.follow peer) ids).destutter (· ≠ ·)) := by
  induction changes generalizing t ids with
  | nil => exact keeps
  | cons change rest ih => exact ih (keeps.apply change)

/-- The change is an update of another peer. -/
def Change.UpdatesOther (peer : String) (change : Change) : Prop :=
  ∃ other id, change = .update other id ∧ other ≠ peer

theorem idsOf_append_others {others : List Change} (foreign : ∀ c ∈ others, c.UpdatesOther peer)
    (changes : List Change) : idsOf peer (changes ++ others) = idsOf peer changes := by
  rw [idsOf, List.foldl_append, ← idsOf]
  induction others with
  | nil => rfl
  | cons c rest ih =>
    obtain ⟨⟨other, id, rfl, different⟩, foreignRest⟩ := List.forall_mem_cons.mp foreign
    rw [List.foldl_cons, Change.follow, if_neg different]
    exact ih foreignRest

/-- A tracker has the last id of the history of each peer and the one in front of it, which is nil if
there is none, and updates of other peers change neither. -/
theorem run_keeps (changes : List Change) (peer : String) :
    (empty.run changes).dependency? peer = (history peer changes).getLast? ∧
      (empty.run changes).previous peer = (history peer changes).dropLast.getLast?.getD .nil ∧
      ∀ others : List Change, (∀ c ∈ others, c.UpdatesOther peer) →
        (empty.run (changes ++ others)).dependency? peer = (empty.run changes).dependency? peer ∧
          (empty.run (changes ++ others)).previous peer = (empty.run changes).previous peer := by
  have keeps : ∀ changes, (empty.run changes).Keeps peer (history peer changes) :=
    fun changes => @Keeps.run empty peer [] (keeps_empty peer) changes
  refine ⟨(keeps changes).dependency, (keeps changes).previous, fun others foreign => ?_⟩
  have same : history peer (changes ++ others) = history peer changes := by
    rw [history, idsOf_append_others foreign, ← history]
  have later := keeps (changes ++ others)
  rw [same] at later
  exact ⟨later.dependency.trans (keeps changes).dependency.symm,
    later.previous.trans (keeps changes).previous.symm⟩

/-- A source that falls back to an id that it had before, after the tracker was started again. -/
def fallingBack : List Change := [
  .update "source" (.ofDigit 9),
  .overwrite ((∅ : Dependencies).insert "source" (.ofDigit 1)),
  .update "source" (.ofDigit 1),
  .update "source" (.ofDigit 2),
  .update "source" (.ofDigit 2),
  .update "source" (.ofDigit 1)]

theorem run_keeps_fallingBack :
    (∀ c ∈ [Change.update "filter" (.ofDigit 3)], c.UpdatesOther "source") ∧
      history "source" fallingBack = [.ofDigit 1, .ofDigit 2, .ofDigit 1] ∧
      (empty.run (fallingBack ++ [.update "filter" (.ofDigit 3)])).dependency? "source" =
        some (.ofDigit 1) ∧
      (empty.run (fallingBack ++ [.update "filter" (.ofDigit 3)])).previous "source" = .ofDigit 2 := by
  have others : ∀ c ∈ [Change.update "filter" (.ofDigit 3)], c.UpdatesOther "source" := by
    simp [Change.UpdatesOther]
  have merged : history "source" fallingBack = [.ofDigit 1, .ofDigit 2, .ofDigit 1] := by
    decide +kernel
  obtain ⟨dependency, previous, unmoved⟩ := run_keeps fallingBack "source"
  obtain ⟨later, earlier⟩ := unmoved _ others
  rw [merged] at dependency previous
  exact ⟨others, merged, later.trans dependency, earlier.trans previous⟩

end Rollback.Tracker
