import Rollback.Proofs.Names
import Rollback.Proofs.Registry.Overwriting
import Rollback.Proofs.Registry.Reproducing
import Rollback.Proofs.Service.Steps

/-!
# Snapshots of a registry

An object can be captured if it captures the very fields that it declares, in whatever order and
however often it declares them. The snapshots of a registry are taken if all of its objects can be
captured; otherwise the one with the smallest key that cannot is reported
(`takeSnapshots_answers`).
-/

namespace Rollback

namespace Snapshot

variable {σ : Type} [Checkpointable σ]

/-- The object captures these fields, which are those that it declares. -/
structure Captures (object : σ) (fields : Fields) : Prop where
  captured : Checkpointable.capture object = .ok fields
  declared : ∀ name, name ∈ Checkpointable.declared object ↔ name ∈ fields

/-- Why the object under a key has no snapshot: it captures nothing, or other fields than it
declares. -/
inductive Lacks (key : String) (object : σ) : Error → Prop where
  | uncaptured {cause : Error} (failed : Checkpointable.capture object = .error cause) :
    Lacks key object cause
  | mismatch {fields : Fields} {declares holds : List String}
    (captured : Checkpointable.capture object = .ok fields)
    (different : ¬∀ name, name ∈ Checkpointable.declared object ↔ name ∈ fields)
    (declared : Enumerates declares (· ∈ Checkpointable.declared object))
    (held : Enumerates holds (· ∈ fields)) :
    Lacks key object (.fieldMismatch key declares holds)

variable {object : σ} {key : String} {snapshot : Snapshot} {fields : Fields} {e : Error}

theorem enumerates_declaredNames (object : σ) :
    Enumerates (declaredNames object) (· ∈ Checkpointable.declared object) :=
  (NameSet.enumerates _).congr fun _ => NameSet.mem_ofNames

theorem declaredNames_eq_keys_iff : declaredNames object = fields.keys ↔
    ∀ name, name ∈ Checkpointable.declared object ↔ name ∈ fields :=
  (enumerates_declaredNames object).eq_iff (NameMap.enumerates fields)

theorem take_eq_ok_iff_captures :
    take key object = .ok snapshot ↔ Captures object snapshot.fields := by
  rw [take_eq_ok_iff, declaredNames_eq_keys_iff]
  exact ⟨fun ⟨captured, declared⟩ => ⟨captured, declared⟩, fun ⟨captured, declared⟩ =>
    ⟨captured, declared⟩⟩

theorem exists_take_iff : (∃ snapshot, take key object = .ok snapshot) ↔
    ∃ fields, Captures object fields := by
  simp only [take_eq_ok_iff_captures]
  exact ⟨fun ⟨snapshot, captures⟩ => ⟨snapshot.fields, captures⟩, fun ⟨fields, captures⟩ =>
    ⟨⟨fields⟩, captures⟩⟩

theorem take_eq_error_iff : take key object = .error e ↔ Lacks key object e := by
  unfold take
  cases captured : Checkpointable.capture object with
  | error cause =>
    simp only [bind, Except.bind, Except.error.injEq]
    constructor
    · rintro rfl
      exact .uncaptured captured
    · rintro (⟨failed⟩ | ⟨captured', _, _, _⟩)
      · exact Except.error.inj (captured.symm.trans failed)
      · cases captured.symm.trans captured'
  | ok fields =>
    simp only [bind, Except.bind, pure, Except.pure]
    constructor
    · intro failed
      split at failed
      · cases failed
      · rename_i different
        cases failed
        exact .mismatch captured (mt declaredNames_eq_keys_iff.mpr different)
          (enumerates_declaredNames object) (NameMap.enumerates fields)
    · rintro (⟨failed⟩ | ⟨captured', different, declared, held⟩)
      · cases captured.symm.trans failed
      · cases Except.ok.inj (captured.symm.trans captured')
        rw [if_neg (mt declaredNames_eq_keys_iff.mp different),
          (declared.eq_iff (enumerates_declaredNames object)).mpr fun _ => Iff.rfl,
          (held.eq_iff (NameMap.enumerates fields)).mpr fun _ => Iff.rfl]

end Snapshot

namespace Registry

variable {ι σ : Type} [Checkpointable σ] {heap : Heap ι σ} {entries : List (String × ι)}
  {r : Registry ι} {e : Error} {snapshots : NameMap Snapshot}

theorem exists_takeAll_of_forall (entries : List (String × ι))
    (each : ∀ entry ∈ entries, ∃ snapshot, Snapshot.take entry.1 (heap entry.2) = .ok snapshot) :
    ∃ found, takeAll heap entries = .ok found := by
  induction entries with
  | nil => exact ⟨[], rfl⟩
  | cons entry rest ih =>
    obtain ⟨⟨snapshot, first⟩, others⟩ := List.forall_mem_cons.mp each
    obtain ⟨found, later⟩ := ih others
    exact ⟨(entry.1, snapshot) :: found, by simp only [takeAll, first, later]; rfl⟩

theorem takeAll_cons_eq_error_iff {entry : String × ι} :
    takeAll heap (entry :: entries) = .error e ↔
      Snapshot.take entry.1 (heap entry.2) = .error e ∨
        (∃ snapshot, Snapshot.take entry.1 (heap entry.2) = .ok snapshot) ∧
          takeAll heap entries = .error e := by
  simp only [takeAll, bind, Except.bind, pure, Except.pure]
  cases Snapshot.take entry.1 (heap entry.2) with
  | error cause => simp
  | ok snapshot => cases takeAll heap entries <;> simp

/-- Snapshots are taken in order up to the first object that has none. -/
theorem takeAll_eq_error_iff : takeAll heap entries = .error e ↔
    ∃ front key handle back, entries = front ++ (key, handle) :: back ∧
      (∀ entry ∈ front, ∃ snapshot, Snapshot.take entry.1 (heap entry.2) = .ok snapshot) ∧
      Snapshot.take key (heap handle) = .error e := by
  induction entries with
  | nil => simp [takeAll]
  | cons entry rest ih =>
    rw [takeAll_cons_eq_error_iff]
    constructor
    · rintro (failed | ⟨here, later⟩)
      · exact ⟨[], _, _, rest, rfl, fun _ member => absurd member List.not_mem_nil, failed⟩
      · obtain ⟨front, key, handle, back, rfl, taken, failed⟩ := ih.mp later
        exact ⟨entry :: front, key, handle, back, rfl, List.forall_mem_cons.mpr ⟨here, taken⟩,
          failed⟩
    · rintro ⟨_ | ⟨first, front⟩, key, handle, back, listed, taken, failed⟩
      · cases listed
        exact Or.inl failed
      · cases listed
        obtain ⟨here, others⟩ := List.forall_mem_cons.mp taken
        exact Or.inr ⟨here, ih.mpr ⟨front, key, handle, back, rfl, others, failed⟩⟩

theorem exists_takeSnapshots_iff : (∃ snapshots, r.takeSnapshots heap = .ok snapshots) ↔
    ∀ (key : String) handle, r.objects[key]? = some handle →
      ∃ snapshot, Snapshot.take key (heap handle) = .ok snapshot := by
  constructor
  · rintro ⟨snapshots, taken⟩ key handle registered
    obtain ⟨snapshot, -, takes⟩ := exists_take taken registered
    exact ⟨snapshot, takes⟩
  · intro each
    obtain ⟨found, taken⟩ := exists_takeAll_of_forall r.objects.toList fun entry member =>
      each entry.1 entry.2 (Std.ExtTreeMap.mem_toList_iff_getElem?_eq_some.mp member)
    exact ⟨.ofList found, by rw [takeSnapshots, taken]; rfl⟩

/-- The snapshots that are taken are those of the registered objects. -/
theorem getElem?_takeSnapshots (taken : r.takeSnapshots heap = .ok snapshots) {key : String}
    {snapshot : Snapshot} : snapshots[key]? = some snapshot ↔
      ∃ handle, r.objects[key]? = some handle ∧
        Snapshot.take key (heap handle) = .ok snapshot := by
  constructor
  · intro found
    obtain ⟨listed, all, same⟩ := Outcome.bind_eq_ok_iff.mp taken
    cases same
    have present : key ∈ (Std.ExtTreeMap.ofList listed : NameMap Snapshot) :=
      Std.ExtTreeMap.mem_iff_isSome_getElem?.mpr (by simp [found])
    rw [Std.ExtTreeMap.mem_ofList, takeAll_map_fst all, List.contains_iff_mem,
      Std.ExtTreeMap.map_fst_toList_eq_keys, Std.ExtTreeMap.mem_keys,
      Std.ExtTreeMap.mem_iff_isSome_getElem?, Option.isSome_iff_exists] at present
    obtain ⟨handle, registered⟩ := present
    obtain ⟨snapshot', found', takes⟩ := exists_take taken registered
    cases Option.some.inj (found.symm.trans found')
    exact ⟨handle, registered, takes⟩
  · rintro ⟨handle, registered, takes⟩
    obtain ⟨snapshot', found, takes'⟩ := exists_take taken registered
    cases Except.ok.inj (takes.symm.trans takes')
    exact found

/-- Of the objects without a snapshot, the one with the smallest key is reported. -/
theorem takeSnapshots_eq_error_iff : r.takeSnapshots heap = .error e ↔
    ∃ (key : String) (handle : ι), r.objects[key]? = some handle ∧
      Snapshot.take key (heap handle) = .error e ∧
      ∀ (other : String) handle', r.objects[other]? = some handle' →
        Text.bytes other < Text.bytes key →
          ∃ snapshot, Snapshot.take other (heap handle') = .ok snapshot := by
  have taken : r.takeSnapshots heap = .error e ↔ takeAll heap r.objects.toList = .error e := by
    rw [takeSnapshots]
    cases takeAll heap r.objects.toList <;> simp [bind, Except.bind, pure, Except.pure]
  rw [taken, takeAll_eq_error_iff]
  constructor
  · rintro ⟨front, key, handle, back, listed, before, failed⟩
    have registered : r.objects[key]? = some handle := by
      rw [← Std.ExtTreeMap.mem_toList_iff_getElem?_eq_some, listed]
      exact List.mem_append_right _ List.mem_cons_self
    exact ⟨key, handle, registered, failed, fun other handle' there lower =>
      before _ (((isBelow_of_toList listed).mem_iff other handle').mpr ⟨there, lower⟩)⟩
  · rintro ⟨key, handle, registered, failed, before⟩
    obtain ⟨front, back, listed⟩ := List.mem_iff_append.mp
      (Std.ExtTreeMap.mem_toList_iff_getElem?_eq_some.mpr registered)
    refine ⟨front, key, handle, back, listed, ?_, failed⟩
    rintro ⟨other, handle'⟩ member
    obtain ⟨there, lower⟩ := ((isBelow_of_toList listed).mem_iff other handle').mp member
    exact before other handle' there lower

/-- The snapshots of a registry are taken if each of its objects captures the fields that it
declares; they hold under each key what the object there has captured, and nothing else. Otherwise
there are none, and the first object without one is reported, in the order of the bytes of the keys.
Objects are only read: a service that takes a checkpoint leaves them as they were. -/
theorem takeSnapshots_answers (r : Registry ι) (heap : Heap ι σ) :
    ((∃ snapshots, r.takeSnapshots heap = .ok snapshots) ↔
      ∀ (key : String) handle, r.objects[key]? = some handle →
        ∃ fields, Snapshot.Captures (heap handle) fields) ∧
    (∀ snapshots, r.takeSnapshots heap = .ok snapshots →
      (∀ key, key ∈ snapshots ↔ key ∈ r.objects) ∧
      ∀ (key : String) handle, r.objects[key]? = some handle → ∃ snapshot,
        snapshots[key]? = some snapshot ∧
          Checkpointable.capture (heap handle) = .ok snapshot.fields) ∧
    (∀ e, r.takeSnapshots heap = .error e ↔
      ∃ (key : String) (handle : ι), r.objects[key]? = some handle ∧
        Snapshot.Lacks key (heap handle) e ∧
        ∀ (other : String) handle', r.objects[other]? = some handle' →
          Text.bytes other < Text.bytes key →
            ∃ fields, Snapshot.Captures (heap handle') fields) ∧
    ∀ (s : Service ι) (w : World ι σ) token fresh now, s.registry = r → w.objects = heap →
      (s.take w token fresh now).2.2.objects = heap := by
  refine ⟨?_, ?_, ?_, ?_⟩
  · simp only [exists_takeSnapshots_iff, Snapshot.exists_take_iff]
  · intro snapshots taken
    constructor
    · intro key
      simp only [Std.ExtTreeMap.mem_iff_isSome_getElem?, Option.isSome_iff_exists]
      constructor
      · rintro ⟨snapshot, found⟩
        obtain ⟨handle, registered, -⟩ := (getElem?_takeSnapshots taken).mp found
        exact ⟨handle, registered⟩
      · rintro ⟨handle, registered⟩
        obtain ⟨snapshot, found, -⟩ := exists_take taken registered
        exact ⟨snapshot, found⟩
    · intro key handle registered
      obtain ⟨snapshot, found, takes⟩ := exists_take taken registered
      exact ⟨snapshot, found, (Snapshot.take_eq_ok_iff_captures.mp takes).captured⟩
  · intro e
    simp only [takeSnapshots_eq_error_iff, Snapshot.take_eq_error_iff, Snapshot.exists_take_iff]
  · rintro s w token fresh now rfl rfl
    rcases took : s.take w token fresh now with ⟨result, s', w'⟩
    obtain ⟨_, _, _, _, _, _, _, rfl⟩ | ⟨_, _, _, rfl⟩ := Service.take_cases took
    · rfl
    · rfl

/-- Three counters. The first declares its field twice, the second declares a field that it does not
capture, and the third cannot be captured. -/
def threeCounters : Heap (Fin 3) Cell
  | 0 => { Cell.counter 1 true with declared := ["count", "count"] }
  | 1 => { Cell.counter 2 true with declared := ["total", "count", "total"] }
  | 2 => { Cell.counter 3 true with uncapturable := true }

def threeKeys : Registry (Fin 3) :=
  ⟨(((∅ : NameMap (Fin 3)).insert "c" 2).insert "b" 1).insert "a" 0⟩

theorem captures_first : Snapshot.Captures (threeCounters 0) (threeCounters 0).fields := by
  refine ⟨rfl, fun name => ?_⟩
  rw [← (NameMap.enumerates (threeCounters 0).fields).mem_iff,
    show (threeCounters 0).fields.keys = ["count"] by decide +kernel]
  simp [Checkpointable.declared, threeCounters]

theorem lacks_second : Snapshot.Lacks "b" (threeCounters 1)
    (.fieldMismatch "b" ["count", "total"] ["count"]) := by
  have held : Enumerates ["count"] (· ∈ (threeCounters 1).fields) := by
    rw [← show (threeCounters 1).fields.keys = ["count"] by decide +kernel]
    exact NameMap.enumerates _
  refine .mismatch rfl ?_ ⟨by decide +kernel, ?_⟩ held
  · intro same
    have total := (same "total").mp (by decide +kernel)
    rw [← held.mem_iff] at total
    revert total
    decide
  · intro name
    simp only [Checkpointable.declared, threeCounters, List.mem_cons]
    grind

/-- The second counter is reported. Without it and the third, the snapshots are taken. -/
theorem takeSnapshots_answers_counters :
    threeKeys.takeSnapshots threeCounters =
      .error (.fieldMismatch "b" ["count", "total"] ["count"]) ∧
    ∃ snapshots, (⟨(∅ : NameMap (Fin 3)).insert "a" 0⟩ : Registry (Fin 3)).takeSnapshots
        threeCounters = .ok snapshots ∧
      snapshots["a"]?.map (·.fields) = some (threeCounters 0).fields := by
  constructor
  · obtain ⟨-, -, fails, -⟩ := takeSnapshots_answers threeKeys threeCounters
    refine (fails _).mpr ⟨"b", 1, by decide +kernel, lacks_second, ?_⟩
    intro other handle registered lower
    have listed : threeKeys.objects.toList = [("a", 0), ("b", 1), ("c", 2)] := by decide +kernel
    rw [← Std.ExtTreeMap.mem_toList_iff_getElem?_eq_some, listed] at registered
    simp only [List.mem_cons, Prod.mk.injEq, List.not_mem_nil, or_false] at registered
    obtain ⟨rfl, rfl⟩ | ⟨rfl, -⟩ | ⟨rfl, -⟩ := registered
    · exact ⟨_, captures_first⟩
    · exact absurd lower (List.lt_irrefl _)
    · exact absurd lower (by decide +kernel)
  · obtain ⟨takes, holds, -, -⟩ :=
      takeSnapshots_answers ⟨(∅ : NameMap (Fin 3)).insert "a" 0⟩ threeCounters
    obtain ⟨snapshots, taken⟩ := takes.mpr fun key handle registered => by
      have here : "a" = key ∧ 0 = handle := by
        simpa [Std.ExtTreeMap.getElem?_insert] using registered
      obtain ⟨rfl, rfl⟩ := here
      exact ⟨_, captures_first⟩
    obtain ⟨snapshot, found, captured⟩ := (holds snapshots taken).2 "a" 0 (by decide +kernel)
    refine ⟨snapshots, taken, ?_⟩
    rw [found, Option.map_some, ← Except.ok.inj (captures_first.captured.symm.trans captured)]

end Registry

end Rollback
