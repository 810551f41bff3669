import Rollback.Json.Tagged

/-!
# Where checkpoints are kept

A backend is the memory of the process or a directory. As a document it has its kind beside its
path.
-/

namespace Rollback

/-- Where checkpoints are kept. -/
inductive Backend where
  | memory
  | directory (path : String)
  deriving DecidableEq, Repr

namespace Backend

instance : Inhabited Backend := ⟨memory⟩

inductive Kind where
  | memory
  | directory
  deriving DecidableEq, Repr

def Kind.name : Kind → String
  | memory => "memory"
  | directory => "directory"

def Kind.names : List (String × Kind) := [memory, directory].map fun k => (k.name, k)

def json : Backend → Json
  | memory => .object [("kind", .string Kind.memory.name)]
  | directory path => .object [("kind", .string Kind.directory.name), ("path", .string path)]

/-- Reads the path of a backend of one kind; memory has none. -/
def Kind.reader : Kind → Reader Backend
  | memory => Reader.unit.map fun () => .memory
  | directory => Reader.text.map .directory

/-- The backend of a kind that needs no path. -/
def Kind.bare : Kind → Option Backend
  | memory => some .memory
  | directory => none

def reader : Reader Backend :=
  Reader.beside "kind" "path" Kind.names Kind.reader Kind.bare

end Backend

end Rollback
