import Rollback.Service.Basic

/-!
# Volumes

Stores can keep their checkpoints in directories of one disk. A store works on its own view of its
directory; the views are brought in line with the disk whenever a directory is opened
(`Store.loadFrom_saveTo`), so that paths which lead to one directory lead to one store, and a store
sees the directories that others open inside of its own.
-/

namespace Rollback

/-- Puts what a store holds into a directory of a disk. -/
def Store.saveTo (s : Store) (folder : Folder) (disk : Disk) : Disk :=
  match s with
  | .directory d => (d.entries.map (disk.setEntries folder)).getD disk
  | .memory _ => disk

/-- Takes over what a directory of a disk holds. -/
def Store.loadFrom (s : Store) (folder : Folder) (disk : Disk) : Store :=
  match s with
  | .directory d => .directory { d with entries := disk.entries? folder }
  | .memory m => .memory m

/-- A store finds again what it has put on the disk. -/
theorem Store.loadFrom_saveTo (d : DirectoryStore) (h : d.entries.isSome) (folder : Folder)
    (disk : Disk) :
    (Store.directory d).loadFrom folder ((Store.directory d).saveTo folder disk) =
      .directory d := by
  obtain ⟨path, layout, _ | entries⟩ := d
  · simp at h
  · simp [loadFrom, saveTo]

/-- A disk and the directories in which stores keep their checkpoints. -/
structure Volume where
  disk : Disk
  stores : List (Folder × StoreId)

namespace Volume

variable {ι σ : Type}

/-- What opening led to: a result, the volume and the world behind it. -/
abbrev Opened (ι σ α : Type) := α × Volume × World ι σ

/-- The disk with what all stores hold. -/
def save (v : Volume) (w : World ι σ) : Disk :=
  v.stores.foldl (fun disk (folder, id) => (w.stores id).saveTo folder disk) v.disk

/-- The stores with what is on the disk. -/
def load (v : Volume) (w : World ι σ) : World ι σ :=
  v.stores.foldl (fun w (folder, id) => w.setStore id ((w.stores id).loadFrom folder v.disk)) w

/-- Creates or finds the directory at a path: what it holds, and the store that keeps its
checkpoints there, which is a fresh one unless another path has led there before. -/
def openAt (v : Volume) (w : World ι σ) (here : Folder) (path : String) (fresh : StoreId) :
    Opened ι σ (Except FileFault (NameMap DirectoryEntry) × StoreId) :=
  let (made, disk) := (v.save w).makePath here path
  let v := { v with disk }
  match made with
  | .error fault => ((.error fault, fresh), v, v.load w)
  | .ok folder =>
    let entries := .ok ((disk.entries? folder).getD ∅)
    match v.stores.lookup folder with
    | some id => ((entries, id), v, v.load w)
    | none => ((entries, fresh), { v with stores := (folder, fresh) :: v.stores }, v.load w)

/-- Opens what the backend of some settings names. Settings that cannot be used touch nothing. -/
def openBackend (v : Volume) (w : World ι σ) (here : Folder) (settings : Settings)
    (fresh : StoreId) : Opened ι σ (Except FileFault (NameMap DirectoryEntry) × StoreId) :=
  match settings.validate, settings.backend with
  | .ok (), .directory path => v.openAt w here path fresh
  | _, _ => ((.ok ∅, fresh), v, w)

/-- A service with settings that can be used, on the store that its backend opens. -/
def openService (v : Volume) (w : World ι σ) (here : Folder) (settings : Settings)
    (fresh : StoreId) (gate : GateId) : Opened ι σ (Outcome (Service ι)) :=
  let ((found, id), v, w) := v.openBackend w here settings fresh
  match Service.ofSettings settings found id gate with
  | .ok (service, store) => (.ok service, v, w.setStore id store)
  | .error e => (.error e, v, w)

end Volume

end Rollback
