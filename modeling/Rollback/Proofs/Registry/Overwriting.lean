import Rollback.Proofs.NameMap
import Rollback.Proofs.Text.Bytewise
import Rollback.Registry

/-!
# Objects that are overwritten

To restore a registry means to overwrite its objects one after the other, each with its hooks around
(`Overwrites`). It gets through all of them or stops at the first that refuses its fields: that one
is left without its second hook, those with smaller keys stay overwritten, and those with greater
keys are not touched (`StopsAt`).
-/

namespace Rollback.Registry

variable {ι σ : Type} [DecidableEq ι] [Checkpointable σ]

/-- The object under a key takes the fields of its snapshot, with both hooks around. -/
inductive Overwritten (snapshots : NameMap Snapshot) (heap : Heap ι σ) (key : String) (handle : ι) :
    Heap ι σ → Prop where
  | intro {snapshot : Snapshot} {object : σ} (found : snapshots[key]? = some snapshot)
    (taken : Checkpointable.overwrite snapshot.fields
      (Checkpointable.beforeRestore (heap handle)) = (.ok (), object)) :
    Overwritten snapshots heap key handle (heap.set handle (Checkpointable.afterRestore object))

/-- The object under a key refuses the fields of its snapshot, after the first hook and without the
second. -/
inductive Refuses (snapshots : NameMap Snapshot) (heap : Heap ι σ) (key : String) (handle : ι)
    (cause : Error) : Heap ι σ → Prop where
  | intro {snapshot : Snapshot} {object : σ} (found : snapshots[key]? = some snapshot)
    (refused : Checkpointable.overwrite snapshot.fields
      (Checkpointable.beforeRestore (heap handle)) = (.error cause, object)) :
    Refuses snapshots heap key handle cause (heap.set handle object)

/-- The objects under these keys are overwritten one after the other. -/
inductive Overwrites (snapshots : NameMap Snapshot) :
    Heap ι σ → List (String × ι) → Heap ι σ → Prop where
  | nil (heap : Heap ι σ) : Overwrites snapshots heap [] heap
  | cons {heap middle after : Heap ι σ} {key : String} {handle : ι} {rest : List (String × ι)}
    (first : Overwritten snapshots heap key handle middle)
    (later : Overwrites snapshots middle rest after) :
    Overwrites snapshots heap ((key, handle) :: rest) after

/-- The registered objects with smaller keys, in ascending order of the bytes. -/
structure IsBelow (r : Registry ι) (key : String) (entries : List (String × ι)) : Prop where
  ascending : entries.Pairwise fun a b => Text.bytes a.1 < Text.bytes b.1
  mem_iff : ∀ other handle, (other, handle) ∈ entries ↔
    r.objects[other]? = some handle ∧ Text.bytes other < Text.bytes key

/-- All objects with smaller keys are overwritten, then the one under the key refuses its fields. -/
inductive StopsAt (r : Registry ι) (snapshots : NameMap Snapshot) (heap : Heap ι σ) (key : String)
    (cause : Error) (after : Heap ι σ) : Prop where
  | intro {entries : List (String × ι)} {middle : Heap ι σ} {handle : ι}
    (below : r.IsBelow key entries) (done : Overwrites snapshots heap entries middle)
    (registered : r.objects[key]? = some handle)
    (refuses : Refuses snapshots middle key handle cause after)

variable {snapshots : NameMap Snapshot} {heap after : Heap ι σ} {key : String} {handle : ι}
  {entries : List (String × ι)} {r : Registry ι} {c : Checkpoint}

theorem Overwritten.restoreAll {middle : Heap ι σ}
    (first : Overwritten snapshots heap key handle middle) (rest : List (String × ι)) :
    restoreAll snapshots heap ((key, handle) :: rest) = restoreAll snapshots middle rest := by
  obtain ⟨found, taken⟩ := first
  simp only [Registry.restoreAll, found, Snapshot.restoreInto, taken]

theorem Overwrites.restoreAll (done : Overwrites snapshots heap entries after) :
    restoreAll snapshots heap entries = (.ok (), after) := by
  induction done with
  | nil => rfl
  | cons first _ ih => rw [first.restoreAll, ih]

/-- Where there is a snapshot, its fields are taken or refused. -/
theorem overwritten_or_refuses (heap : Heap ι σ) (handle : ι) (rest : List (String × ι))
    (covered : key ∈ snapshots) :
    (∃ middle, Overwritten snapshots heap key handle middle) ∨
    ∃ cause after, Refuses snapshots heap key handle cause after ∧
      restoreAll snapshots heap ((key, handle) :: rest) =
        (.error (.objectRefused key cause), after) := by
  obtain ⟨snapshot, found⟩ :=
    Option.isSome_iff_exists.mp (Std.ExtTreeMap.mem_iff_isSome_getElem?.mp covered)
  rcases outcome : Checkpointable.overwrite snapshot.fields
    (Checkpointable.beforeRestore (heap handle)) with ⟨cause | _, object⟩
  · refine Or.inr ⟨cause, _, .intro found outcome, ?_⟩
    simp only [restoreAll, found, Snapshot.restoreInto, outcome]
  · exact Or.inl ⟨_, .intro found outcome⟩

/-- All objects are overwritten, or those in front of one that refuses its fields. -/
theorem restoreAll_cases (heap : Heap ι σ) (covered : ∀ entry ∈ entries, entry.1 ∈ snapshots) :
    (∃ after, Overwrites snapshots heap entries after) ∨
    ∃ front key handle back middle cause after, entries = front ++ (key, handle) :: back ∧
      Overwrites snapshots heap front middle ∧ Refuses snapshots middle key handle cause after ∧
      restoreAll snapshots heap entries = (.error (.objectRefused key cause), after) := by
  induction entries generalizing heap with
  | nil => exact Or.inl ⟨heap, .nil heap⟩
  | cons entry rest ih =>
    obtain ⟨key, handle⟩ := entry
    obtain ⟨here, others⟩ := List.forall_mem_cons.mp covered
    obtain ⟨middle, first⟩ | ⟨cause, after, refuses, stops⟩ :=
      overwritten_or_refuses heap handle rest here
    · obtain ⟨after, later⟩ | ⟨front, next, handle', back, last, cause, after, rfl, done, refuses,
        stops⟩ := ih middle others
      · exact Or.inl ⟨after, .cons first later⟩
      · exact Or.inr ⟨(key, handle) :: front, next, handle', back, last, cause, after, rfl,
          .cons first done, refuses, (first.restoreAll _).trans stops⟩
    · exact Or.inr ⟨[], key, handle, rest, heap, cause, after, rfl, .nil heap, refuses, stops⟩

omit [DecidableEq ι] in
/-- What stands in front of a key are the objects with smaller keys. -/
theorem isBelow_of_toList {front back : List (String × ι)}
    (listed : r.objects.toList = front ++ (key, handle) :: back) : r.IsBelow key front := by
  have ascending : r.objects.toList.Pairwise fun a b => Text.bytes a.1 < Text.bytes b.1 :=
    (NameMap.toList_ascending r.objects).imp Text.bytes_lt_iff.mpr
  rw [listed, List.pairwise_append] at ascending
  obtain ⟨inFront, behind, across⟩ := ascending
  refine ⟨inFront, fun other handle' => ?_⟩
  rw [← Std.ExtTreeMap.mem_toList_iff_getElem?_eq_some, listed, List.mem_append]
  constructor
  · intro member
    exact ⟨Or.inl member, across _ member _ List.mem_cons_self⟩
  · rintro ⟨member | member, lower⟩
    · exact member
    · obtain same | member := List.mem_cons.mp member
      · cases same
        exact absurd lower (List.lt_irrefl _)
      · exact absurd lower (List.lt_asymm ((List.pairwise_cons.mp behind).1 _ member))

omit [DecidableEq ι] in
theorem canRestore_iff : r.canRestore c = true ↔ ∀ entry ∈ r.objects.toList,
    entry.1 ∈ c.snapshots := by
  simp only [canRestore, keys, List.all_eq_true, ← Std.ExtTreeMap.map_fst_toList_eq_keys,
    List.forall_mem_map, Checkpoint.contains, Std.ExtTreeMap.contains_iff_mem]

/-- A restore that fails has found some object without a snapshot, or stops at one that refuses its
fields. -/
theorem restore_error_cases {e : Error} (failed : r.restore c heap = (.error e, after)) :
    (r.canRestore c = false ∧ e = .objectsMissing c.id (r.missing c) ∧ after = heap) ∨
    ∃ key cause, e = .objectRefused key cause ∧ r.StopsAt c.snapshots heap key cause after := by
  unfold restore at failed
  split at failed
  · rename_i covered
    obtain ⟨after', done⟩ | ⟨front, key, handle, back, middle, cause, after', listed, done,
      refuses, stops⟩ := restoreAll_cases heap (canRestore_iff.mp covered)
    · rw [done.restoreAll] at failed
      cases failed
    · rw [stops] at failed
      cases failed
      have registered : r.objects[key]? = some handle := by
        rw [← Std.ExtTreeMap.mem_toList_iff_getElem?_eq_some, listed]
        exact List.mem_append_right _ List.mem_cons_self
      exact Or.inr ⟨key, cause, rfl, .intro (isBelow_of_toList listed) done registered refuses⟩
  · rename_i uncovered
    cases failed
    exact Or.inl ⟨Bool.eq_false_iff.mpr uncovered, rfl, rfl⟩

end Rollback.Registry
