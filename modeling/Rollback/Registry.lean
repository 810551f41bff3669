import Rollback.Checkpoint

/-!
# Registries

The objects of one instance that opted into checkpointing, by key. A registry holds handles; the
objects themselves are shared with the operators that keep working on them, so they live in a heap
of their own, and one object may be registered under several keys. All keys are visited in
ascending order.
-/

namespace Rollback

abbrev Heap (ι σ : Type) := ι → σ

def Heap.set {ι σ : Type} [DecidableEq ι] (heap : Heap ι σ) (handle : ι) (object : σ) : Heap ι σ :=
  fun other => if other = handle then object else heap other

/-- The handles of the registered objects by key. -/
structure Registry (ι : Type) where
  objects : NameMap ι

namespace Registry

variable {ι σ : Type} [DecidableEq ι] [Checkpointable σ]

def empty : Registry ι := ⟨∅⟩

instance : Inhabited (Registry ι) := ⟨empty⟩

/-- Registers an object under a key that is not taken. -/
def add (r : Registry ι) (key : String) (handle : ι) : Outcome (Registry ι) :=
  if key ∈ r.objects then .error (.keyTaken key) else .ok ⟨r.objects.insert key handle⟩

def contains (r : Registry ι) (key : String) : Bool := r.objects.contains key

def keys (r : Registry ι) : List String := r.objects.keys

/-- Snapshots of the objects under these keys, up to the first that cannot be taken. -/
def takeAll (heap : Heap ι σ) : List (String × ι) → Outcome (List (String × Snapshot))
  | [] => .ok []
  | (key, handle) :: rest => do
    let snapshot ← Snapshot.take key (heap handle)
    return (key, snapshot) :: (← takeAll heap rest)

def takeSnapshots (r : Registry ι) (heap : Heap ι σ) : Outcome (NameMap Snapshot) := do
  return .ofList (← takeAll heap r.objects.toList)

/-- The registered keys for which the checkpoint has no snapshot. -/
def missing (r : Registry ι) (c : Checkpoint) : List String :=
  r.keys.filter fun key => !c.contains key

def canRestore (r : Registry ι) (c : Checkpoint) : Bool := r.keys.all c.contains

/-- Overwrites the objects one after the other, each from the snapshot under its key. After a
failure the objects in front of it stay overwritten and those behind it stay as they are. -/
def restoreAll (snapshots : NameMap Snapshot) (heap : Heap ι σ) :
    List (String × ι) → Outcome Unit × Heap ι σ
  | [] => (.ok (), heap)
  | (key, handle) :: rest =>
    match snapshots[key]? with
    | none => (.error (.snapshotGone key), heap)
    | some snapshot =>
      match snapshot.restoreInto (heap handle) with
      | (.ok (), object) => restoreAll snapshots (heap.set handle object) rest
      | (.error e, object) => (.error (.objectRefused key e), heap.set handle object)

/-- Overwrites every object from a checkpoint that covers all keys. -/
def restore (r : Registry ι) (c : Checkpoint) (heap : Heap ι σ) : Outcome Unit × Heap ι σ :=
  if r.canRestore c then restoreAll c.snapshots heap r.objects.toList
  else (.error (.objectsMissing c.id (r.missing c)), heap)

/-- The keys in quotes. -/
def summary (r : Registry ι) : String :=
  "StateRegistry \x7b keys: " ++ Text.quotedList r.keys ++ " \x7d"

end Registry

end Rollback
