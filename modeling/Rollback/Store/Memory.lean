import Rollback.Checkpoint

/-!
# Checkpoints in memory

Checkpoints are kept as texts, so that what is read back shares nothing with the live objects. The
headers are kept beside them for listing. An id is written once.
-/

namespace Rollback

/-- A checkpoint's text and its header. -/
structure StoredText where
  header : Header
  text : String

/-- The stored checkpoints by id, and how their texts are laid out. -/
structure MemoryStore where
  layout : Layout
  entries : Std.ExtTreeMap CheckpointId StoredText

namespace MemoryStore

def empty (layout : Layout) : MemoryStore := ⟨layout, ∅⟩

def put (m : MemoryStore) (c : Checkpoint) : Outcome Unit × MemoryStore :=
  match c.header.validate with
  | .error e => (.error e, m)
  | .ok () =>
    if c.id ∈ m.entries then (.error (.alreadyStored c.id), m)
    else
      (.ok (), { m with entries := m.entries.insert c.id ⟨c.header, c.json.render m.layout⟩ })

def retrieve (m : MemoryStore) (id : CheckpointId) : Outcome (Option Checkpoint) :=
  match m.entries[id]? with
  | none => .ok none
  | some entry =>
    match Checkpoint.reader.run entry.text with
    | .ok c => .ok (some c)
    | .error f => .error (.unreadable f)

def delete (m : MemoryStore) (id : CheckpointId) : Outcome Bool × MemoryStore :=
  (.ok (m.entries.contains id), { m with entries := m.entries.erase id })

def list (m : MemoryStore) : Outcome (List (Outcome Header)) :=
  .ok (m.entries.toList.map fun (_, entry) => .ok entry.header)

def clear (m : MemoryStore) : Outcome Unit × MemoryStore := (.ok (), { m with entries := ∅ })

def count (m : MemoryStore) : Nat := m.entries.size

/-- The size of all texts in bytes. -/
def size (m : MemoryStore) : Nat :=
  m.entries.toList.foldr (fun (_, entry) size => entry.text.utf8ByteSize + size) 0

end MemoryStore

end Rollback
