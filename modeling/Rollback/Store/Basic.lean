import Rollback.Settings.Backend
import Rollback.Store.Directory
import Rollback.Store.Memory

/-!
# Stores

A store keeps checkpoints by id, in memory or in a directory. An id is written once and stays as it
was written until it is deleted. Recovery reads headers only, so a store lists headers without
reading the snapshots.
-/

namespace Rollback

/-- Where checkpoints are kept, with its content. -/
inductive Store where
  | memory (m : MemoryStore)
  | directory (d : DirectoryStore)

namespace Store

instance : Inhabited Store := ⟨.memory (.empty .compact)⟩

/-- Opens a backend; a directory with what it holds once it was created or found. -/
def openBackend (found : Except FileFault (NameMap DirectoryEntry)) : Backend → Outcome Store
  | .memory => .ok (.memory (.empty .compact))
  | .directory path => (DirectoryStore.openAt path .compact found).map .directory

/-- Stores a checkpoint under an id that is not taken. -/
def put (s : Store) (c : Checkpoint) : Outcome Unit × Store :=
  match s with
  | memory m => let (result, m) := m.put c; (result, memory m)
  | directory d => let (result, d) := d.put c; (result, directory d)

/-- The checkpoint with this id, if there is one. -/
def retrieve (s : Store) (id : CheckpointId) : Outcome (Option Checkpoint) :=
  match s with
  | memory m => m.retrieve id
  | directory d => d.retrieve id

def get (s : Store) (id : CheckpointId) : Outcome Checkpoint :=
  match s.retrieve id with
  | .ok (some c) => .ok c
  | .ok none => .error (.notFound id)
  | .error e => .error e

/-- Whether there was a checkpoint to delete. -/
def delete (s : Store) (id : CheckpointId) : Outcome Bool × Store :=
  match s with
  | memory m => let (result, m) := m.delete id; (result, memory m)
  | directory d => let (result, d) := d.delete id; (result, directory d)

/-- The headers of all checkpoints, with a fault for each that cannot be read. -/
def listAll (s : Store) : Outcome (List (Outcome Header)) :=
  match s with
  | memory m => m.list
  | directory d => d.list

/-- Whether a listed header is one of this owner's; what cannot be read may be anybody's. -/
def isOf (owner : Option String) : Outcome Header → Bool
  | .ok h => owner.all (· = h.owner)
  | .error _ => true

/-- The headers of one owner's checkpoints or of all, with a fault for each that cannot be read. -/
def list (s : Store) (owner : Option String) : Outcome (List (Outcome Header)) :=
  s.listAll.map fun found => found.filter (isOf owner)

/-- The headers of one owner's checkpoints or of all, if each can be read. -/
def headers (s : Store) (owner : Option String) : Outcome (List Header) := do
  (← s.list owner).mapM id

def clear (s : Store) : Outcome Unit × Store :=
  match s with
  | memory m => let (result, m) := m.clear; (result, memory m)
  | directory d => let (result, d) := d.clear; (result, directory d)

end Store

end Rollback
