import Rollback.Proofs.Recovery.Histories
import Rollback.Proofs.Store.Listing

/-!
# Deleting what is listed

A store that was filled by services keeps every checkpoint under its own id (`Keyed`). Then a header
that is listed tells under which id its checkpoint can be deleted, and all that deleting it changes is
that it is listed no more (`delete_listed`).
-/

namespace Rollback

namespace Store

/-- A header can be read from what the store keeps under a name. In memory the names are ids. -/
def HoldsAt : Store → String → Header → Prop
  | memory m, name, h =>
    ∃ id text, name = DirectoryStore.fileName id ∧ m.entries[id]? = some ⟨h, text⟩
  | directory d, name, h => DirectoryStore.isFileName name = true ∧
    ∃ text, d.entry? name = some (.file text) ∧ Checkpoint.headerReader.run text = .ok h

def Holds (s : Store) (h : Header) : Prop := ∃ name, s.HoldsAt name h

/-- Every checkpoint is kept under its own id. -/
def Keyed (s : Store) : Prop := ∀ name h, s.HoldsAt name h → name = DirectoryStore.fileName h.id

end Store

namespace DirectoryStore

theorem fileName_inj {a b : CheckpointId} (same : fileName a = fileName b) : a = b := by
  have chars := congrArg String.toList same
  rw [fileName, fileName, String.toList_append, String.toList_append, List.append_cancel_right_eq,
    String.toList_inj] at chars
  have read := congrArg CheckpointId.ofString? chars
  rw [CheckpointId.ofString?_toString, CheckpointId.ofString?_toString] at read
  exact Option.some.inj read

theorem files_erase_perm (entries : NameMap DirectoryEntry) (name : String) :
    (files (entries.erase name)).Perm ((files entries).filter (·.1 ≠ name)) := by
  rw [files, files, List.filter_comm]
  exact (toList_erase_perm entries name).filter _

variable {d : DirectoryStore} {entries : NameMap DirectoryEntry} {found : List Header}

theorem lookup_eq (present : d.entries = some entries) (name : String) :
    d.entry? name = entries[name]? := by
  rw [ entry?, present, Option.bind_some]

theorem lookup_erase (d : DirectoryStore) (name other : String) :
    entry? { d with entries := d.entries.map fun all => all.erase name } other =
      if name = other then none else d.entry? other := by
  cases entries : d.entries with
  | none => simp [ entry?, entries]
  | some all => simp [ entry?, entries, Std.ExtTreeMap.getElem?_erase]

theorem mem_files_of_lookup (present : d.entries = some entries) {name : String}
    {entry : DirectoryEntry} : (name, entry) ∈ files entries ↔
      d.entry? name = some entry ∧ isFileName name = true := by
  rw [mem_files, lookup_eq present]

/-- The listed headers are those that the files hold, in the order of the files. -/
theorem forall₂_holdsAt (present : d.entries = some entries)
    (listed : (Store.directory d).headers none = .ok found) : List.Forall₂ (fun file h =>
      (∃ text, file.2 = .file text ∧ Checkpoint.headerReader.run text = .ok h) ∧
        (Store.directory d).HoldsAt file.1 h) (files entries) found := by
  obtain ⟨_, same, read⟩ := headers_eq_ok_iff.mp listed
  cases present.symm.trans same
  refine ((List.forall₂_and_left _ _).mpr ⟨fun _ member => member, read⟩).imp ?_
  rintro ⟨name, _⟩ h ⟨member, text, rfl, first⟩
  obtain ⟨stands, named⟩ := (mem_files_of_lookup present).mp member
  exact ⟨⟨text, rfl, first⟩, named, text, stands, first⟩

end DirectoryStore

namespace Store

variable {s s' : Store} {m : MemoryStore} {d : DirectoryStore} {c : Checkpoint} {h h' : Header}
  {id : CheckpointId} {name : String} {found : List Header} {present : Outcome Bool}

/-! ## What is listed -/

theorem holdsAt_unique (here : s.HoldsAt name h) (there : s.HoldsAt name h') : h = h' := by
  cases s with
  | memory m =>
    obtain ⟨id, text, rfl, stands⟩ := here
    obtain ⟨id', text', named, stands'⟩ := there
    obtain rfl := DirectoryStore.fileName_inj named
    cases stands.symm.trans stands'
    rfl
  | directory d =>
    obtain ⟨_, text, stands, read⟩ := here
    obtain ⟨_, text', stands', read'⟩ := there
    cases stands.symm.trans stands'
    exact Except.ok.inj (read.symm.trans read')

/-- Each listed header is held under a name of its own, and no other name holds one. -/
theorem exists_names (listed : s.headers none = .ok found) :
    ∃ names : List String, names.Nodup ∧ List.Forall₂ s.HoldsAt names found ∧
      ∀ name h, s.HoldsAt name h → name ∈ names := by
  cases s with
  | memory m =>
    rw [MemoryStore.headers_eq] at listed
    cases listed
    refine ⟨m.entries.keys.map DirectoryStore.fileName, ?_, ?_, ?_⟩
    · exact Std.ExtTreeMap.nodup_keys.map fun _ _ => DirectoryStore.fileName_inj
    · rw [← Std.ExtTreeMap.map_fst_toList_eq_keys, List.map_map, List.forall₂_map_left_iff,
        List.forall₂_map_right_iff, List.forall₂_same]
      rintro ⟨id, h, text⟩ member
      exact ⟨id, text, rfl, Std.ExtTreeMap.mem_toList_iff_getElem?_eq_some.mp member⟩
    · rintro name h ⟨id, text, rfl, stands⟩
      apply List.mem_map_of_mem
      rw [Std.ExtTreeMap.mem_keys, Std.ExtTreeMap.mem_iff_isSome_getElem?, stands]
      rfl
  | directory d =>
    obtain ⟨entries, stored, _⟩ := DirectoryStore.headers_eq_ok_iff.mp listed
    have read := DirectoryStore.forall₂_holdsAt stored listed
    refine ⟨(DirectoryStore.files entries).map (·.1), ?_, ?_, ?_⟩
    · refine List.Nodup.sublist (List.filter_sublist.map _) ?_
      rw [Std.ExtTreeMap.map_fst_toList_eq_keys]
      exact Std.ExtTreeMap.nodup_keys
    · rw [List.forall₂_map_left_iff]
      exact read.imp fun _ _ both => both.2
    · rintro name h ⟨named, text, stands, _⟩
      exact List.mem_map.mpr
        ⟨_, (DirectoryStore.mem_files_of_lookup stored).mpr ⟨stands, named⟩, rfl⟩

theorem mem_headers (listed : s.headers none = .ok found) : h ∈ found ↔ s.Holds h := by
  obtain ⟨names, _, read, complete⟩ := exists_names listed
  constructor
  · intro member
    obtain ⟨i, inside, rfl⟩ := List.mem_iff_getElem.mp member
    exact ⟨_, read.get (read.length_eq ▸ inside) inside⟩
  · rintro ⟨name, holds⟩
    obtain ⟨i, inside, rfl⟩ := List.mem_iff_getElem.mp (complete name h holds)
    have within : i < found.length := read.length_eq ▸ inside
    rw [holdsAt_unique holds (read.get inside within)]
    exact List.getElem_mem within

theorem keyed_of_headers_nil (empty : s.headers none = .ok []) : s.Keyed := by
  intro name h holds
  cases (mem_headers empty).mpr ⟨name, holds⟩

theorem Keyed.distinct (keyed : s.Keyed) (listed : s.headers none = .ok found) :
    DistinctIds found := by
  obtain ⟨names, distinct, read, _⟩ := exists_names listed
  have same : names = (found.map (·.id)).map DirectoryStore.fileName := by
    rw [List.map_map, ← List.forall₂_eq_eq_eq, List.forall₂_map_right_iff]
    exact read.imp keyed
  rw [same] at distinct
  exact distinct.of_map

/-! ## What is stored -/

theorem put_memory (stored : (memory m).put c = (.ok (), s')) : c.id ∉ m.entries ∧
    s' = memory { m with
      entries := m.entries.insert c.id ⟨c.header, c.json.render m.layout⟩ } := by
  simp only [put, Prod.mk.injEq] at stored
  obtain ⟨ok, rfl⟩ := stored
  obtain ⟨fresh, after⟩ := MemoryStore.put_ok (Prod.ext ok rfl)
  exact ⟨fresh, congrArg memory after⟩

theorem put_directory (stored : (directory d).put c = (.ok (), s')) : ∃ entries,
    d.entries = some entries ∧ DirectoryStore.fileName c.id ∉ entries ∧
    s' = directory { d with
      entries := some ((entries.erase (DirectoryStore.unfinishedName c.id)).insert
        (DirectoryStore.fileName c.id) (.file (c.json.render d.layout))) } := by
  simp only [put, Prod.mk.injEq] at stored
  obtain ⟨ok, rfl⟩ := stored
  obtain ⟨entries, here, fresh, after⟩ := DirectoryStore.put_ok (Prod.ext ok rfl)
  exact ⟨entries, here, fresh, congrArg directory after⟩

/-- A checkpoint that is stored changes nothing under other names. -/
theorem holdsAt_put (stored : s.put c = (.ok (), s')) (holds : s'.HoldsAt name h) :
    name = DirectoryStore.fileName c.id ∧ h = c.header ∨ s.HoldsAt name h := by
  cases s with
  | memory m =>
    obtain ⟨_, rfl⟩ := put_memory stored
    obtain ⟨id, text, rfl, stands⟩ := holds
    rw [Std.ExtTreeMap.getElem?_insert] at stands
    split at stands
    · rename_i same
      rw [Std.LawfulEqCmp.compare_eq_iff_eq] at same
      cases stands
      exact Or.inl ⟨congrArg _ same.symm, rfl⟩
    · exact Or.inr ⟨id, text, rfl, stands⟩
  | directory d =>
    obtain ⟨entries, here, _, rfl⟩ := put_directory stored
    obtain ⟨named, text, stands, read⟩ := holds
    rw [DirectoryStore.lookup_eq rfl] at stands
    simp only [Std.ExtTreeMap.getElem?_insert, Std.ExtTreeMap.getElem?_erase,
      Std.LawfulEqCmp.compare_eq_iff_eq] at stands
    split at stands
    · rename_i same
      cases stands
      exact Or.inl ⟨same.symm, Checkpoint.header_of_render read⟩
    · split at stands
      · cases stands
      · refine Or.inr ⟨named, text, ?_, read⟩
        rwa [DirectoryStore.lookup_eq here]

/-- A checkpoint is stored under a name that held nothing. -/
theorem not_holdsAt_of_put (stored : s.put c = (.ok (), s')) :
    ¬ s.HoldsAt (DirectoryStore.fileName c.id) h := by
  intro holds
  cases s with
  | memory m =>
    obtain ⟨id, text, named, stands⟩ := holds
    obtain rfl := DirectoryStore.fileName_inj named
    rw [getElem?_neg _ _ (put_memory stored).1] at stands
    cases stands
  | directory d =>
    obtain ⟨entries, here, fresh, _⟩ := put_directory stored
    obtain ⟨_, text, stands, _⟩ := holds
    rw [DirectoryStore.lookup_eq here, getElem?_neg _ _ fresh] at stands
    cases stands

theorem holds_put (stored : s.put c = (.ok (), s')) (holds : s'.Holds h) :
    h = c.header ∨ s.Holds h := by
  obtain ⟨name, holds⟩ := holds
  obtain ⟨_, same⟩ | before := holdsAt_put stored holds
  · exact Or.inl same
  · exact Or.inr ⟨name, before⟩

theorem Keyed.put (keyed : s.Keyed) (stored : s.put c = (.ok (), s')) : s'.Keyed := by
  intro name h holds
  obtain ⟨named, same⟩ | before := holdsAt_put stored holds
  · rw [named, same, Checkpoint.id]
  · exact keyed name h before

/-- A checkpoint is stored only if no other one has its id. -/
theorem Keyed.ne_of_put (keyed : s.Keyed) (stored : s.put c = (.ok (), s')) (holds : s.Holds h) :
    h.id ≠ c.id := by
  obtain ⟨name, holds⟩ := holds
  intro same
  rw [keyed name h holds, same] at holds
  exact not_holdsAt_of_put stored holds

/-! ## What is deleted -/

theorem delete_memory (deleted : (memory m).delete id = (present, s')) :
    s' = memory { m with entries := m.entries.erase id } := by
  simp only [delete, MemoryStore.delete, Prod.mk.injEq] at deleted
  exact deleted.2.symm

/-- A file is removed, or nothing changes. -/
theorem delete_directory (deleted : (directory d).delete id = (present, s')) :
    s' = directory { d with
      entries := d.entries.map fun all => all.erase (DirectoryStore.fileName id) } ∨
    s' = directory d := by
  simp only [delete, DirectoryStore.delete, Prod.mk.injEq] at deleted
  obtain ⟨_, rfl⟩ := deleted
  split
  · exact Or.inr rfl
  · exact Or.inr rfl
  · exact Or.inl rfl

theorem holdsAt_delete (deleted : s.delete id = (present, s')) (holds : s'.HoldsAt name h) :
    s.HoldsAt name h := by
  cases s with
  | memory m =>
    obtain rfl := delete_memory deleted
    obtain ⟨other, text, rfl, stands⟩ := holds
    rw [Std.ExtTreeMap.getElem?_erase] at stands
    split at stands
    · cases stands
    · exact ⟨other, text, rfl, stands⟩
  | directory d =>
    obtain rfl | rfl := delete_directory deleted
    · obtain ⟨named, text, stands, read⟩ := holds
      rw [DirectoryStore.lookup_erase] at stands
      split at stands
      · cases stands
      · exact ⟨named, text, stands, read⟩
    · exact holds

theorem holds_delete (deleted : s.delete id = (present, s')) (holds : s'.Holds h) : s.Holds h := by
  obtain ⟨name, holds⟩ := holds
  exact ⟨name, holdsAt_delete deleted holds⟩

theorem Keyed.delete (keyed : s.Keyed) (deleted : s.delete id = (present, s')) : s'.Keyed :=
  fun name h holds => keyed name h (holdsAt_delete deleted holds)

theorem retrieve_delete {other : CheckpointId} (different : other ≠ id)
    (deleted : s.delete id = (present, s')) : s'.retrieve other = s.retrieve other := by
  cases s with
  | memory m =>
    obtain rfl := delete_memory deleted
    simp only [retrieve, MemoryStore.retrieve, Std.ExtTreeMap.getElem?_erase,
      Std.LawfulEqCmp.compare_eq_iff_eq, if_neg (Ne.symm different)]
  | directory d =>
    obtain rfl | rfl := delete_directory deleted
    · have elsewhere : DirectoryStore.fileName id ≠ DirectoryStore.fileName other :=
        fun same => different (DirectoryStore.fileName_inj same).symm
      simp only [retrieve, DirectoryStore.retrieve, DirectoryStore.lookup_erase, if_neg elsewhere]
    · rfl

theorem retrieve_deleted {present : Bool} (deleted : s.delete id = (.ok present, s')) :
    s'.retrieve id = .ok none := by
  cases s with
  | memory m =>
    obtain rfl := delete_memory deleted
    simp [retrieve, MemoryStore.retrieve]
  | directory d =>
    simp only [delete, DirectoryStore.delete, Prod.mk.injEq] at deleted
    obtain ⟨ok, rfl⟩ := deleted
    cases found : d.entry? (DirectoryStore.fileName id) with
    | none => simp [retrieve, DirectoryStore.retrieve, found]
    | some entry =>
      cases entry with
      | directory => simp [found] at ok
      | file text => simp [retrieve, DirectoryStore.retrieve, DirectoryStore.lookup_erase]

theorem retrieve_ne_none (holds : s.HoldsAt (DirectoryStore.fileName id) h) :
    s.retrieve id ≠ .ok none := by
  cases s with
  | memory m =>
    obtain ⟨other, text, named, stands⟩ := holds
    obtain rfl := DirectoryStore.fileName_inj named
    simp only [retrieve, MemoryStore.retrieve, stands]
    split <;> simp
  | directory d =>
    obtain ⟨_, text, stands, _⟩ := holds
    simp only [retrieve, DirectoryStore.retrieve, stands]
    split <;> simp

theorem Keyed.retrieve_ne_none (keyed : s.Keyed) (holds : s.Holds h) :
    s.retrieve h.id ≠ .ok none := by
  obtain ⟨name, holds⟩ := holds
  rw [keyed name h holds] at holds
  exact Store.retrieve_ne_none holds

theorem Keyed.delete_memory_listed (keyed : (memory m).Keyed)
    (listed : (memory m).headers none = .ok found)
    (holds : (memory m).HoldsAt (DirectoryStore.fileName h.id) h) : ∃ s' found',
    (memory m).delete h.id = (.ok true, s') ∧ s'.headers none = .ok found' ∧
      found'.Perm (found.filter (·.id ≠ h.id)) := by
  rw [MemoryStore.headers_eq] at listed
  cases listed
  obtain ⟨id, text, named, stands⟩ := holds
  obtain rfl := DirectoryStore.fileName_inj named
  have there : m.entries.contains h.id = true := by
    rw [Std.ExtTreeMap.contains_eq_isSome_getElem?, stands]
    rfl
  refine ⟨_, _, by rw [Store.delete, MemoryStore.delete, there], MemoryStore.headers_eq _, ?_⟩
  have keys : m.entries.toList.filter (·.1 ≠ h.id) =
      m.entries.toList.filter (·.2.header.id ≠ h.id) := by
    apply List.filter_congr
    rintro ⟨id, other, text⟩ inside
    have own := keyed _ other
      ⟨id, text, rfl, Std.ExtTreeMap.mem_toList_iff_getElem?_eq_some.mp inside⟩
    rw [DirectoryStore.fileName_inj own]
  rw [List.filter_map]
  exact ((toList_erase_perm m.entries h.id).trans (.of_eq keys)).map _

theorem Keyed.delete_directory_listed (keyed : (directory d).Keyed)
    (listed : (directory d).headers none = .ok found)
    (holds : (directory d).HoldsAt (DirectoryStore.fileName h.id) h) : ∃ s' found',
    (directory d).delete h.id = (.ok true, s') ∧ s'.headers none = .ok found' ∧
      found'.Perm (found.filter (·.id ≠ h.id)) := by
  obtain ⟨entries, stored, _⟩ := DirectoryStore.headers_eq_ok_iff.mp listed
  have deleted : (directory d).delete h.id = (.ok true, directory
      { d with entries := some (entries.erase (DirectoryStore.fileName h.id)) }) := by
    obtain ⟨_, text, stands, _⟩ := holds
    simp only [Store.delete, DirectoryStore.delete, stands, stored, Option.map_some]
  have left := List.rel_filter (p := (·.1 ≠ DirectoryStore.fileName h.id)) (q := (·.id ≠ h.id)) ?_
    (DirectoryStore.forall₂_holdsAt stored listed)
  · obtain ⟨found', read', perm⟩ := List.perm_comp_forall₂
      (DirectoryStore.files_erase_perm entries (DirectoryStore.fileName h.id)) left
    exact ⟨_, found', deleted, DirectoryStore.headers_eq_ok_iff.mpr
      ⟨_, rfl, read'.imp fun _ _ both => both.1⟩, perm⟩
  · rintro ⟨name, _⟩ other ⟨_, holds⟩
    obtain rfl := keyed name other holds
    simp only [decide_eq_true_eq, not_iff_not]
    exact ⟨DirectoryStore.fileName_inj, congrArg _⟩

/-- Deleting a listed checkpoint finds it, and it is listed no more. -/
theorem Keyed.delete_listed (keyed : s.Keyed) (listed : s.headers none = .ok found)
    (member : h ∈ found) : ∃ s' found', s.delete h.id = (.ok true, s') ∧
      s'.headers none = .ok found' ∧ found'.Perm (found.filter (·.id ≠ h.id)) := by
  obtain ⟨name, holds⟩ := (mem_headers listed).mp member
  rw [keyed name h holds] at holds
  cases s with
  | memory m => exact keyed.delete_memory_listed listed holds
  | directory d => exact keyed.delete_directory_listed listed holds

end Store

end Rollback
