import Rollback.Proofs.Outcome
import Rollback.Proofs.Registry.Overwriting
import Rollback.Proofs.Snapshot.Lawful

/-!
# Snapshots that are taken again

Whatever happens to lawful objects after their snapshots were taken, a restore brings the snapshots
back: those that are taken next are the same (`restore_takes_again`). An object may stand under
several keys. Its snapshots have the same fields under each of them, so no key undoes what another
has restored.
-/

namespace Rollback.Registry

variable {ι σ ρ : Type} [Checkpointable σ]

/-- Whether an object is registered, under whatever key. -/
def Holds (r : Registry ι) (handle : ι) : Prop := ∃ key : String, r.objects[key]? = some handle

theorem mem_map_toList_iff {r : Registry ι} {handle : ι} :
    handle ∈ r.objects.toList.map (·.2) ↔ r.Holds handle := by
  simp [Holds, Std.ExtTreeMap.mem_toList_iff_getElem?_eq_some]

section Taking

variable {heap other : Heap ι σ} {entries : List (String × ι)} {found : List (String × Snapshot)}
  {r : Registry ι} {snapshots : NameMap Snapshot}

theorem takeAll_map_fst (taken : takeAll heap entries = .ok found) :
    found.map (·.1) = entries.map (·.1) := by
  induction entries generalizing found with
  | nil =>
    cases taken
    rfl
  | cons entry rest ih =>
    obtain ⟨snapshot, first, taken⟩ := Outcome.bind_eq_ok_iff.mp taken
    obtain ⟨others, later, same⟩ := Outcome.bind_eq_ok_iff.mp taken
    cases same
    rw [List.map_cons, List.map_cons, ih later]

theorem exists_take_of_takeAll (taken : takeAll heap entries = .ok found) {key : String}
    {handle : ι} (member : (key, handle) ∈ entries) :
    ∃ snapshot, (key, snapshot) ∈ found ∧ Snapshot.take key (heap handle) = .ok snapshot := by
  induction entries generalizing found with
  | nil => cases member
  | cons entry rest ih =>
    obtain ⟨snapshot, first, taken⟩ := Outcome.bind_eq_ok_iff.mp taken
    obtain ⟨others, later, same⟩ := Outcome.bind_eq_ok_iff.mp taken
    cases same
    obtain here | behind := List.mem_cons.mp member
    · cases here
      exact ⟨snapshot, List.mem_cons_self, first⟩
    · obtain ⟨snapshot', inside, takes⟩ := ih later behind
      exact ⟨snapshot', List.mem_cons_of_mem _ inside, takes⟩

theorem takeAll_congr (same : ∀ entry ∈ entries,
    Snapshot.take entry.1 (other entry.2) = Snapshot.take entry.1 (heap entry.2)) :
    takeAll other entries = takeAll heap entries := by
  induction entries with
  | nil => rfl
  | cons entry rest ih =>
    obtain ⟨here, behind⟩ := List.forall_mem_cons.mp same
    simp only [takeAll, here, ih behind]

/-- The snapshots that are taken hold one of each registered object. -/
theorem exists_take (taken : r.takeSnapshots heap = .ok snapshots) {key : String} {handle : ι}
    (registered : r.objects[key]? = some handle) :
    ∃ snapshot, snapshots[key]? = some snapshot ∧
      Snapshot.take key (heap handle) = .ok snapshot := by
  obtain ⟨found, all, same⟩ := Outcome.bind_eq_ok_iff.mp taken
  cases same
  have ascending : (found.map (·.1)).Pairwise (· < ·) := by
    rw [takeAll_map_fst all, List.pairwise_map]
    exact NameMap.toList_ascending r.objects
  obtain ⟨snapshot, inside, takes⟩ :=
    exists_take_of_takeAll all (Std.ExtTreeMap.mem_toList_iff_getElem?_eq_some.mpr registered)
  rw [← NameMap.toList_ofList ascending, Std.ExtTreeMap.mem_toList_iff_getElem?_eq_some] at inside
  exact ⟨snapshot, inside, takes⟩

end Taking

section Restoring

open Checkpointable

variable [DecidableEq ι] {states : ι → σ → Prop} {rest : ι → σ → ρ} {heap now : Heap ι σ}
  {snapshots : NameMap Snapshot}

/-- A lawful object that is overwritten is as it was captured, and the others are as they were. -/
theorem exists_overwritten {key : String} {handle : ι} {snapshot : Snapshot}
    (lawful : Lawful (states handle) (rest handle)) (earlier : states handle (heap handle))
    (later : states handle (now handle))
    (declared : Snapshot.declaredNames (now handle) = Snapshot.declaredNames (heap handle))
    (found : snapshots[key]? = some snapshot)
    (taken : Snapshot.take key (heap handle) = .ok snapshot) :
    ∃ after, Overwritten snapshots now key handle after ∧
      Returns (states handle) (rest handle) (heap handle) (now handle) (after handle) ∧
      ∀ other, other ≠ handle → after other = now other := by
  obtain ⟨object, overwritten, returns⟩ := lawful.exists_returns earlier later declared taken
  refine ⟨_, .intro found overwritten, ?_, fun other different => ?_⟩
  · rw [Heap.set, if_pos rfl]
    exact returns
  · rw [Heap.set, if_neg different]

/-- An object that is overwritten again, under another key, stays as it was captured. -/
theorem exists_overwrites {entries : List (String × ι)}
    (lawful : ∀ handle ∈ entries.map (·.2), Lawful (states handle) (rest handle))
    (earlier : ∀ handle ∈ entries.map (·.2), states handle (heap handle))
    (later : ∀ handle ∈ entries.map (·.2), states handle (now handle) ∧
      Snapshot.declaredNames (now handle) = Snapshot.declaredNames (heap handle))
    (taken : ∀ entry ∈ entries, ∃ snapshot, snapshots[entry.1]? = some snapshot ∧
      Snapshot.take entry.1 (heap entry.2) = .ok snapshot) :
    ∃ after, Overwrites snapshots now entries after ∧
      (∀ handle ∈ entries.map (·.2),
        Returns (states handle) (rest handle) (heap handle) (now handle) (after handle)) ∧
      ∀ handle, handle ∉ entries.map (·.2) → after handle = now handle := by
  induction entries generalizing now with
  | nil => exact ⟨now, .nil now, fun _ member => absurd member List.not_mem_nil, fun _ _ => rfl⟩
  | cons entry behind ih =>
    obtain ⟨key, handle⟩ := entry
    simp only [List.map_cons, List.forall_mem_cons] at lawful earlier later taken
    obtain ⟨snapshot, found, takes⟩ := taken.1
    obtain ⟨middle, first, returns, others⟩ :=
      exists_overwritten lawful.1 earlier.1 later.1.1 later.1.2 found takes
    have ready : ∀ other ∈ behind.map (·.2), states other (middle other) ∧
        Snapshot.declaredNames (middle other) = Snapshot.declaredNames (heap other) := by
      intro other member
      by_cases same : other = handle
      · rw [same]
        exact ⟨returns.state, returns.declared⟩
      · rw [others other same]
        exact later.2 other member
    obtain ⟨after, done, returned, untouched⟩ := ih lawful.2 earlier.2 ready taken.2
    refine ⟨after, .cons first done, fun other member => ?_, fun other absent => ?_⟩
    · by_cases again : other ∈ behind.map (·.2)
      · have second := returned other again
        by_cases same : other = handle
        · subst same
          exact returns.trans second
        · rwa [others other same] at second
      · cases (List.mem_cons.mp member).resolve_right again
        rw [untouched handle again]
        exact returns
    · rw [List.map_cons, List.mem_cons, not_or] at absent
      rw [untouched other absent.2, others other absent.1]

/-- Let the snapshots of lawful objects be taken, and let the objects change in any way that keeps
the fields that they declare. A checkpoint with these snapshots is then restored, the snapshots that
are taken next are the same, and what no field covers is kept in all objects without hooks. Objects
that are not registered are not touched. -/
theorem restore_takes_again {r : Registry ι}
    (lawful : ∀ handle, r.Holds handle → Lawful (states handle) (rest handle))
    (earlier : ∀ handle, r.Holds handle → states handle (heap handle))
    (taken : r.takeSnapshots heap = .ok snapshots)
    (later : ∀ handle, r.Holds handle → states handle (now handle) ∧
      Snapshot.declaredNames (now handle) = Snapshot.declaredNames (heap handle))
    {c : Checkpoint} (agrees : ∀ key ∈ r.objects, c.snapshots[key]? = snapshots[key]?) :
    ∃ after, r.restore c now = (.ok (), after) ∧ r.takeSnapshots after = .ok snapshots ∧
      (∀ handle, r.Holds handle → Hookless (states handle) →
        rest handle (after handle) = rest handle (now handle)) ∧
      ∀ handle, ¬r.Holds handle → after handle = now handle := by
  have takes : ∀ entry ∈ r.objects.toList, ∃ snapshot, c.snapshots[entry.1]? = some snapshot ∧
      Snapshot.take entry.1 (heap entry.2) = .ok snapshot := by
    rintro ⟨key, handle⟩ member
    have registered := Std.ExtTreeMap.mem_toList_iff_getElem?_eq_some.mp member
    obtain ⟨snapshot, found, takes⟩ := exists_take taken registered
    have present : key ∈ r.objects :=
      Std.ExtTreeMap.mem_iff_isSome_getElem?.mpr (by simp [registered])
    exact ⟨snapshot, (agrees key present).trans found, takes⟩
  simp only [← mem_map_toList_iff] at lawful earlier later ⊢
  obtain ⟨after, done, returned, untouched⟩ := exists_overwrites lawful earlier later takes
  refine ⟨after, ?_, ?_, fun handle member => (returned handle member).rest, untouched⟩
  · have covered : r.canRestore c = true := by
      refine canRestore_iff.mpr fun entry member => ?_
      obtain ⟨snapshot, found, _⟩ := takes entry member
      exact Std.ExtTreeMap.mem_iff_isSome_getElem?.mpr (by simp [found])
    rw [restore, if_pos covered, done.restoreAll]
  · have same : takeAll after r.objects.toList = takeAll heap r.objects.toList :=
      takeAll_congr fun entry member =>
        (returned entry.2 (List.mem_map_of_mem member)).take entry.1
    rw [takeSnapshots, same]
    exact taken

end Restoring

/-- The first counter under two keys, and the second. -/
def counterRegistry : Registry Bool :=
  ⟨(((∅ : NameMap Bool).insert "a" false).insert "b" false).insert "c" true⟩

/-- Two counters, of which the second has no hooks, but data of its own. -/
def counters (first second : Int) (data : List Hook) : Heap Bool Cell
  | false => .counter first true
  | true => { Cell.counter second false with hooks := data }

def counterSnapshots (first second : Int) : NameMap Snapshot :=
  (((∅ : NameMap Snapshot).insert "a" ⟨(Cell.counter first true).fields⟩).insert
    "b" ⟨(Cell.counter first true).fields⟩).insert "c" ⟨(Cell.counter second true).fields⟩

/-- Both counters go on, the data of the second changes, and the checkpoint has a snapshot too many.
The first counter is restored twice. -/
theorem restore_takes_again_counters : ∃ after,
    counterRegistry.takeSnapshots (counters 1 2 []) = .ok (counterSnapshots 1 2) ∧
    counterRegistry.restore ⟨⟨.nil, "sink", .epoch, ∅⟩, (counterSnapshots 1 2).insert "d" ⟨∅⟩⟩
      (counters 7 8 [.restore]) = (.ok (), after) ∧
    counterRegistry.takeSnapshots after = .ok (counterSnapshots 1 2) ∧
    (after true).apart = (counters 7 8 [.restore] true).apart := by
  have taken : counterRegistry.takeSnapshots (counters 1 2 []) = .ok (counterSnapshots 1 2) := by
    rfl
  have earlier : ∀ handle, (counters 0 0 [] handle).Alike (counters 1 2 [] handle) := by
    intro handle
    cases handle <;>
      exact ⟨rfl, rfl, rfl, fun _ => by decide +kernel, fun _ => by decide +kernel⟩
  have later : ∀ handle, (counters 0 0 [] handle).Alike (counters 7 8 [.restore] handle) := by
    intro handle
    cases handle <;>
      exact ⟨rfl, rfl, rfl, fun _ => by decide +kernel, fun _ => by decide +kernel⟩
  have declared : ∀ handle, Snapshot.declaredNames (counters 7 8 [.restore] handle) =
      Snapshot.declaredNames (counters 1 2 [] handle) := by
    intro handle
    cases handle <;> rfl
  have agrees : ∀ key ∈ counterRegistry.objects,
      ((counterSnapshots 1 2).insert "d" ⟨∅⟩)[key]? = (counterSnapshots 1 2)[key]? := by
    intro key member
    have different : "d" ≠ key := by
      rintro rfl
      revert member
      decide +kernel
    rw [Std.ExtTreeMap.getElem?_insert, if_neg (by simpa using different)]
  obtain ⟨after, restored, again, kept, -⟩ := restore_takes_again
    (fun handle _ => Cell.lawful (counters 0 0 [] handle)) (fun handle _ => earlier handle) taken
    (fun handle _ => ⟨later handle, declared handle⟩) (c := ⟨⟨.nil, "sink", .epoch, ∅⟩, _⟩) agrees
  exact ⟨after, taken, restored, again, kept true ⟨"c", by rfl⟩ (Cell.hookless_of_plain rfl)⟩

end Rollback.Registry
