import Rollback.Error
import Rollback.Json.Basic

/-!
# Disks

A disk is a tree of directories with files. Each name of a path is looked up in the directory that
the names before it lead to, so the first name that leads nowhere decides why a path fails.
-/

namespace Rollback

/-- What stands under a name in a directory. -/
inductive DirectoryEntry where
  | file (text : String)
  | directory
  deriving DecidableEq, Repr

/-- A directory: the names that lead to it from the root, the last one first. -/
abbrev Folder := List String

structure Disk where
  folders : Std.ExtTreeMap Folder (NameMap DirectoryEntry)

namespace Disk

def empty : Disk := ⟨(∅ : Std.ExtTreeMap Folder (NameMap DirectoryEntry)).insert [] ∅⟩

def entries? (d : Disk) (folder : Folder) : Option (NameMap DirectoryEntry) := d.folders[folder]?

def setEntries (d : Disk) (folder : Folder) (entries : NameMap DirectoryEntry) : Disk :=
  ⟨d.folders.insert folder entries⟩

@[simp] theorem entries?_setEntries_self (d : Disk) (folder : Folder)
    (entries : NameMap DirectoryEntry) :
    (d.setEntries folder entries).entries? folder = some entries := by
  simp [entries?, setEntries]

theorem entries?_setEntries_of_ne (d : Disk) {folder other : Folder} (h : folder ≠ other)
    (entries : NameMap DirectoryEntry) :
    (d.setEntries folder entries).entries? other = d.entries? other := by
  simp [entries?, setEntries, Std.ExtTreeMap.getElem?_insert, h]

/-! ## Paths -/

/-- How many octets a path has at most. -/
def maxPath : Nat := 4095

/-- How many octets a name has at most. -/
def maxName : Nat := 255

def names (path : String) : List String := (path.splitOn "/").filter (· ≠ "")

/-- Where a path starts: at the root if it begins with a separator. -/
def start (here : Folder) (path : String) : Folder :=
  if path.toList.head? = some '/' then [] else here

def checkPath (path : String) : Except FileFault Unit :=
  if '\x00' ∈ path.toList then .error .nulInName
  else if path.isEmpty then .error .noSuchFile
  else if maxPath < path.utf8ByteSize then .error .nameTooLong
  else .ok ()

/-- Follows names from a directory. One dot stays where it is, and two dots lead back. -/
def walk (d : Disk) (here : Folder) : List String → Except FileFault (Folder × DirectoryEntry)
  | [] => .ok (here, .directory)
  | name :: rest =>
    if name = "." then d.walk here rest
    else if name = ".." then d.walk here.tail rest
    else if maxName < name.utf8ByteSize then .error .nameTooLong
    else match (d.entries? here).bind (·[name]?) with
      | none => .error .noSuchFile
      | some .directory => d.walk (name :: here) rest
      | some (.file text) =>
        if rest.isEmpty then .ok (name :: here, .file text) else .error .notDirectory

/-! ## Files -/

/-- The text of the file at a path. A separator behind the last name asks for a directory. -/
def read (d : Disk) (here : Folder) (path : String) : Except FileFault String := do
  checkPath path
  let behind := if path.toList.getLast? = some '/' then ["."] else []
  match ← d.walk (start here path) (names path ++ behind) with
  | (_, .file text) => return text
  | (_, .directory) => throw .isDirectory

/-- Writes the file at a path into a directory that is there. -/
def write (d : Disk) (here : Folder) (path : String) (text : String) :
    Except FileFault Disk := do
  checkPath path
  match (names path).reverse with
  | [] => throw .isDirectory
  | name :: above =>
    match ← d.walk (start here path) above.reverse with
    | (_, .file _) => throw .notDirectory
    | (folder, .directory) =>
      let entries := (d.entries? folder).getD ∅
      if name = "." || name = ".." || entries[name]? = some .directory then throw .isDirectory
      else if maxName < name.utf8ByteSize then throw .nameTooLong
      else return d.setEntries folder (entries.insert name (.file text))

/-! ## Directories -/

/-- Creates a directory in a directory, unless it is there already. -/
def enter (d : Disk) (folder : Folder) (name : String) : Except FileFault Folder × Disk :=
  if name = "." then (.ok folder, d)
  else if name = ".." then (.ok folder.tail, d)
  else if maxName < name.utf8ByteSize then (.error .nameTooLong, d)
  else
    let entries := (d.entries? folder).getD ∅
    match entries[name]? with
    | some .directory => (.ok (name :: folder), d)
    | some (.file _) => (.error .fileExists, d)
    | none =>
      (.ok (name :: folder),
        (d.setEntries folder (entries.insert name .directory)).setEntries (name :: folder) ∅)

/-- Creates the directory that names lead to, the last one first, and before it those above it that
are missing. A dot at the end is no directory of its own, so nothing is created for it. -/
def makeAll (d : Disk) (here : Folder) (ns : List String) : Except FileFault Folder × Disk :=
  match ns with
  | [] => (.ok here, d)
  | name :: above =>
    match d.walk here above.reverse with
    | .ok (folder, .directory) => d.enter folder name
    | .ok (_, .file _) => (.error .notDirectory, d)
    | .error .noSuchFile =>
      match d.makeAll here (if name = "." then above.tail else above) with
      | (.ok folder, d) => if name = "." then (.error .noSuchFile, d) else d.enter folder name
      | failed => failed
    | .error fault => (.error fault, d)
termination_by ns.length
decreasing_by
  split
  · simp only [List.length_tail, List.length_cons]
    omega
  · simp

/-- Creates the directory at a path with all that it needs. Whether it succeeds or not, what was
created on the way stays. -/
def makePath (d : Disk) (here : Folder) (path : String) : Except FileFault Folder × Disk :=
  match checkPath path with
  | .error fault => (.error fault, d)
  | .ok () =>
    let ns := names path
    let dot := if ns.getLast? = some "." then ["."] else []
    d.makeAll (start here path) (dot ++ (ns.filter (· ≠ ".")).reverse)

def remove (d : Disk) (folder : Folder) : Disk :=
  let left : Disk := ⟨d.folders.filter fun other _ => !folder.isSuffixOf other⟩
  match folder, left.entries? folder.tail with
  | name :: above, some entries => left.setEntries above (entries.erase name)
  | _, _ => left

end Disk

end Rollback
