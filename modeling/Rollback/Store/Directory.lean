import Rollback.Checkpoint
import Rollback.Disk

/-!
# Checkpoints in a directory

Each checkpoint is a file that is named by its id. A text is first written under a name for
unfinished files and then renamed, so that nobody reads half of it. Files with other names are
left alone; everything that is named like a checkpoint is taken for one.
-/

namespace Rollback

/-- A directory of checkpoints. -/
structure DirectoryStore where
  path : String
  layout : Layout
  /-- What the directory holds, by name; nothing once the directory itself is gone. -/
  entries : Option (NameMap DirectoryEntry)

namespace DirectoryStore

/-- A store in the directory at a path, given what it holds once it was created or found there. -/
def openAt (path : String) (layout : Layout) :
    Except FileFault (NameMap DirectoryEntry) → Outcome DirectoryStore
  | .ok entries => .ok ⟨path, layout, some entries⟩
  | .error fault => .error (.file fault)

/-- The name of a checkpoint's file. -/
def fileName (id : CheckpointId) : String := id.toString ++ ".json"

/-- The name under which a checkpoint is written at first. -/
def unfinishedName (id : CheckpointId) : String := id.toString ++ ".tmp"

/-- Whether a name is that of a checkpoint's file: it ends in `.json` behind something else. -/
def isFileName (name : String) : Bool :=
  5 < name.length && ".json".toList.isSuffixOf name.toList

def pathOf (d : DirectoryStore) (name : String) : String :=
  if d.path.toList.getLast? = some '/' then d.path ++ name else d.path ++ "/" ++ name

def put (d : DirectoryStore) (c : Checkpoint) : Outcome Unit × DirectoryStore :=
  match c.header.validate with
  | .error e => (.error e, d)
  | .ok () =>
    match d.entries with
    | none => (.error (.file .noSuchFile), d)
    | some entries =>
      if fileName c.id ∈ entries then (.error (.alreadyStored c.id), d)
      else if entries[unfinishedName c.id]? = some .directory then
        (.error (.file .isDirectory), d)
      else
        let entries := (entries.erase (unfinishedName c.id)).insert (fileName c.id)
          (.file (c.json.render d.layout))
        (.ok (), { d with entries := some entries })

def entry? (d : DirectoryStore) (name : String) : Option DirectoryEntry :=
  d.entries.bind (·[name]?)

def retrieve (d : DirectoryStore) (id : CheckpointId) : Outcome (Option Checkpoint) :=
  match d.entry? (fileName id) with
  | none => .ok none
  | some .directory => .error (.file .isDirectory)
  | some (.file text) =>
    match Checkpoint.reader.run text with
    | .ok c => .ok (some c)
    | .error f => .error (.unreadable f)

def delete (d : DirectoryStore) (id : CheckpointId) : Outcome Bool × DirectoryStore :=
  match d.entry? (fileName id) with
  | none => (.ok false, d)
  | some .directory => (.error (.file .isDirectory), d)
  | some (.file _) =>
    (.ok true, { d with entries := d.entries.map fun all => all.erase (fileName id) })

/-- Reads the header of a file; a file that is none of a checkpoint is reported with its path. -/
def header (d : DirectoryStore) (name : String) (text : String) : Outcome Header :=
  match Checkpoint.headerReader.run text with
  | .ok h => .ok h
  | .error f => .error (.unreadableFile (d.pathOf name) f)

/-- The files that are named like checkpoints. -/
def files (entries : NameMap DirectoryEntry) : List (String × DirectoryEntry) :=
  entries.toList.filter fun (name, _) => isFileName name

/-- The headers of all checkpoints, with a fault for each file that cannot be read. -/
def list (d : DirectoryStore) : Outcome (List (Outcome Header)) :=
  match d.entries with
  | none => .error (.file .noSuchFile)
  | some entries => (files entries).mapM fun
    | (name, .file text) => .ok (d.header name text)
    | (_, .directory) => .error (.file .isDirectory)

/-- Removes files one after the other, up to the first that is a directory. -/
def removeAll (entries : NameMap DirectoryEntry) :
    List (String × DirectoryEntry) → Outcome Unit × NameMap DirectoryEntry
  | [] => (.ok (), entries)
  | (_, .directory) :: _ => (.error (.file .isDirectory), entries)
  | (name, .file _) :: rest => removeAll (entries.erase name) rest

/-- Removes every file that is named like a checkpoint. -/
def clear (d : DirectoryStore) : Outcome Unit × DirectoryStore :=
  match d.entries with
  | none => (.error (.file .noSuchFile), d)
  | some entries =>
    let (result, left) := removeAll entries (files entries)
    (result, { d with entries := some left })

end DirectoryStore

end Rollback
