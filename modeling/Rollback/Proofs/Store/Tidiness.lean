import Rollback.Proofs.Store.Requests

/-!
# Stores of one writer

Nobody else writes into the directory of a tidy store, and its own requests keep it so. Under an id
such a store either has the text of a checkpoint or nothing at all, and that alone decides what it
does: under a free id a valid checkpoint is stored (`Free.put_eq`), and under an id that is taken it
is refused (`Stores.put_eq`).
-/

namespace Rollback

namespace DirectoryStore

/-- Everything that is named like a checkpoint is named by an id, and no unfinished file is in the
way of another. -/
structure Tidy (d : DirectoryStore) : Prop where
  present : d.entries.isSome = true
  named : ∀ name entry, d.entry? name = some entry → isFileName name = true →
    ∃ id, name = fileName id
  unobstructed : ∀ id, d.entry? (unfinishedName id) ≠ some .directory

variable {d : DirectoryStore} {entries : NameMap DirectoryEntry}

/-- Files are removed one by one, and what has another name stays. -/
theorem removeAll_files {files : List (String × DirectoryEntry)}
    (all : ∀ file ∈ files, ∃ text, file.2 = .file text) :
    (removeAll entries files).1 = .ok () ∧ ∀ name, (removeAll entries files).2[name]? =
      if name ∈ files.map (·.1) then none else entries[name]? := by
  induction files generalizing entries with
  | nil => simp [removeAll]
  | cons file rest ih =>
    rw [List.forall_mem_cons] at all
    obtain ⟨⟨text, same⟩, all⟩ := all
    obtain ⟨other, _⟩ := file
    cases same
    obtain ⟨done, left⟩ := ih all
    refine ⟨done, fun name => ?_⟩
    rw [removeAll, left, List.map_cons, Std.ExtTreeMap.getElem?_erase]
    by_cases same : other = name
    · subst same
      simp
    · by_cases later : name ∈ rest.map (·.1) <;> simp_all [Ne.symm same]

end DirectoryStore

namespace Store

variable {s : Store} {c : Checkpoint} {id : CheckpointId}

/-- Nobody else writes into the directory of the store. -/
def Tidy : Store → Prop
  | memory _ => True
  | directory d => d.Tidy

namespace Tidy

theorem put (tidy : s.Tidy) (c : Checkpoint) : (s.put c).2.Tidy := by
  obtain ⟨result, s', stored⟩ : ∃ result s', s.put c = (result, s') := ⟨_, _, rfl⟩
  rw [stored]
  cases result with
  | error e =>
    rw [put_error stored]
    exact tidy
  | ok _ =>
    cases s with
    | memory m =>
      obtain ⟨_, rfl⟩ := put_memory stored
      trivial
    | directory d =>
      obtain ⟨entries, present, _, rfl⟩ := put_directory stored
      refine ⟨rfl, fun name entry stands named => ?_, fun id stands => ?_⟩
      · rw [lookup_put present] at stands
        split at stands
        · exact ⟨c.id, Eq.symm ‹_›⟩
        · split at stands
          · cases stands
          · exact DirectoryStore.Tidy.named tidy name entry stands named
      · rw [lookup_put present, if_neg (fileName_ne_unfinishedName _ _)] at stands
        split at stands
        · cases stands
        · exact DirectoryStore.Tidy.unobstructed tidy id stands

theorem delete (tidy : s.Tidy) (id : CheckpointId) : (s.delete id).2.Tidy := by
  obtain ⟨result, s', deleted⟩ : ∃ result s', s.delete id = (result, s') := ⟨_, _, rfl⟩
  rw [deleted]
  cases s with
  | memory m =>
    rw [delete_memory deleted]
    trivial
  | directory d =>
    obtain rfl | rfl := delete_directory deleted
    · refine ⟨?_, fun name entry stands named => ?_, fun other stands => ?_⟩
      · rw [Option.isSome_map]
        exact DirectoryStore.Tidy.present tidy
      · rw [DirectoryStore.lookup_erase] at stands
        split at stands
        · cases stands
        · exact DirectoryStore.Tidy.named tidy name entry stands named
      · rw [DirectoryStore.lookup_erase] at stands
        split at stands
        · cases stands
        · exact DirectoryStore.Tidy.unobstructed tidy other stands
    · exact tidy

/-- A store that is cleared has nothing under any id. -/
theorem clear (tidy : s.Tidy) (files : ∀ id, s.Free id ∨ ∃ c, c.id = id ∧ s.Stores c) :
    s.clear.1 = .ok () ∧ s.clear.2.Tidy ∧ ∀ id, s.clear.2.Free id := by
  cases s with
  | memory m => exact ⟨rfl, trivial, fun id => by simp [Free, Store.clear, MemoryStore.clear]⟩
  | directory d =>
    obtain ⟨entries, present⟩ := Option.isSome_iff_exists.mp (DirectoryStore.Tidy.present tidy)
    -- nothing with the name of a checkpoint is a directory, which could not be removed
    have all : ∀ file ∈ DirectoryStore.files entries, ∃ text, file.2 = .file text := by
      rintro ⟨name, entry⟩ member
      obtain ⟨stands, named⟩ := (DirectoryStore.mem_files_of_lookup present).mp member
      obtain ⟨id, rfl⟩ := DirectoryStore.Tidy.named tidy name entry stands named
      obtain free | ⟨c, rfl, layout, stores⟩ := files id
      · cases stands.symm.trans free
      · cases stands.symm.trans stores
        exact ⟨_, rfl⟩
    obtain ⟨done, left⟩ := @DirectoryStore.removeAll_files entries _ all
    have lookup : ∀ name entry, DirectoryStore.entry? { d with
        entries := some (DirectoryStore.removeAll entries (DirectoryStore.files entries)).2 } name =
          some entry → d.entry? name = some entry ∧ DirectoryStore.isFileName name = false := by
      intro name entry stands
      rw [DirectoryStore.lookup_eq rfl, left] at stands
      split at stands
      · cases stands
      · rename_i others
        rw [← DirectoryStore.lookup_eq present] at stands
        refine ⟨stands, ?_⟩
        rw [← Bool.not_eq_true]
        exact fun named => others (List.mem_map.mpr
          ⟨_, (DirectoryStore.mem_files_of_lookup present).mpr ⟨stands, named⟩, rfl⟩)
    simp only [Store.clear, DirectoryStore.clear, present]
    refine ⟨done, ⟨rfl, fun name entry stands named => ?_, fun id stands => ?_⟩, fun id => ?_⟩
    · rw [(lookup name entry stands).2] at named
      cases named
    · exact DirectoryStore.Tidy.unobstructed tidy id (lookup _ _ stands).1
    · refine Option.eq_none_iff_forall_not_mem.mpr fun entry stands => ?_
      have other := (lookup _ entry stands).2
      rw [DirectoryStore.isFileName_fileName] at other
      cases other

theorem reopen (tidy : s.Tidy) (layout : Layout) : (s.reopen layout).2.Tidy := by
  cases s with
  | memory m => trivial
  | directory d =>
    refine ⟨rfl, fun name entry stands named => ?_, fun id stands => ?_⟩
    · rw [entry?_reopen] at stands
      exact DirectoryStore.Tidy.named tidy name entry stands named
    · rw [entry?_reopen] at stands
      exact DirectoryStore.Tidy.unobstructed tidy id stands

end Tidy

namespace Free

theorem put (free : s.Free id) (other : c.id ≠ id) : (s.put c).2.Free id := by
  obtain ⟨result, s', stored⟩ : ∃ result s', s.put c = (result, s') := ⟨_, _, rfl⟩
  rw [stored]
  cases result with
  | error e =>
    rw [put_error stored]
    exact free
  | ok _ =>
    cases s with
    | memory m =>
      obtain ⟨_, rfl⟩ := put_memory stored
      simpa [Free, Std.ExtTreeMap.getElem?_insert, other] using free
    | directory d =>
      obtain ⟨entries, present, _, rfl⟩ := put_directory stored
      change DirectoryStore.entry? _ _ = none
      rw [lookup_put present, if_neg fun same => other (DirectoryStore.fileName_inj same),
        if_neg (fileName_ne_unfinishedName _ _).symm]
      exact free

theorem delete (free : s.Free id) (other : CheckpointId) : (s.delete other).2.Free id := by
  obtain ⟨result, s', deleted⟩ : ∃ result s', s.delete other = (result, s') := ⟨_, _, rfl⟩
  rw [deleted]
  cases s with
  | memory m =>
    rw [delete_memory deleted]
    change (m.entries.erase other)[id]? = none
    rw [Std.ExtTreeMap.getElem?_erase]
    split
    · rfl
    · exact free
  | directory d =>
    obtain rfl | rfl := delete_directory deleted
    · change DirectoryStore.entry? _ _ = none
      rw [DirectoryStore.lookup_erase]
      split
      · rfl
      · exact free
    · exact free

theorem reopen (free : s.Free id) (layout : Layout) : (s.reopen layout).2.Free id := by
  cases s with
  | memory m => exact free
  | directory d => exact (entry?_reopen d layout _).trans free

theorem retrieve_eq (free : s.Free id) : s.retrieve id = .ok none := by
  cases s with
  | memory m =>
    have none : m.entries[id]? = none := free
    rw [retrieve, MemoryStore.retrieve, none]
  | directory d =>
    have none : d.entry? (DirectoryStore.fileName id) = none := free
    rw [retrieve, DirectoryStore.retrieve, none]

theorem delete_eq (free : s.Free id) : (s.delete id).1 = .ok false := by
  cases s with
  | memory m =>
    have none : m.entries[id]? = none := free
    simp [Store.delete, MemoryStore.delete, Std.ExtTreeMap.contains_eq_isSome_getElem?, none]
  | directory d =>
    have none : d.entry? (DirectoryStore.fileName id) = none := free
    simp [Store.delete, DirectoryStore.delete, none]

/-- A valid checkpoint is stored under an id that is free, unless a directory is in its way. -/
theorem put_eq (free : s.Free c.id) (tidy : s.Tidy) (valid : c.header.validate = .ok ()) :
    (s.put c).1 = .ok () := by
  cases s with
  | memory m =>
    have absent : c.id ∉ m.entries := by
      rw [Std.ExtTreeMap.mem_iff_isSome_getElem?, show m.entries[c.id]? = none from free]
      simp
    simp only [Store.put, MemoryStore.put, valid, if_neg absent]
  | directory d =>
    obtain ⟨entries, present⟩ := Option.isSome_iff_exists.mp (DirectoryStore.Tidy.present tidy)
    have absent : DirectoryStore.fileName c.id ∉ entries := by
      rw [Std.ExtTreeMap.mem_iff_isSome_getElem?, ← DirectoryStore.lookup_eq present,
        show d.entry? (DirectoryStore.fileName c.id) = none from free]
      simp
    have clear : entries[DirectoryStore.unfinishedName c.id]? ≠ some .directory := by
      rw [← DirectoryStore.lookup_eq present]
      exact DirectoryStore.Tidy.unobstructed tidy c.id
    simp only [Store.put, DirectoryStore.put, valid, present, if_neg absent, if_neg clear]

end Free

theorem put_invalid {e : Error} (invalid : c.header.validate = .error e) :
    s.put c = (.error e, s) := by
  cases s with
  | memory m => simp only [put, MemoryStore.put, invalid]
  | directory d => simp only [put, DirectoryStore.put, invalid]

namespace Stores

variable {k : Checkpoint}

theorem put_eq (stores : s.Stores k) (same : c.id = k.id) (valid : c.header.validate = .ok ()) :
    s.put c = (.error (.alreadyStored c.id), s) := by
  obtain ⟨layout, stands⟩ := stores
  rw [← same] at stands
  cases s with
  | memory m =>
    have present : c.id ∈ m.entries := by
      rw [Std.ExtTreeMap.mem_iff_isSome_getElem?, stands]
      rfl
    simp only [Store.put, MemoryStore.put, valid, if_pos present]
  | directory d =>
    replace stands : d.entry? (DirectoryStore.fileName c.id) = some _ := stands
    cases there : d.entries with
    | none => simp [DirectoryStore.entry?, there] at stands
    | some entries =>
      have present : DirectoryStore.fileName c.id ∈ entries := by
        rw [Std.ExtTreeMap.mem_iff_isSome_getElem?, ← DirectoryStore.lookup_eq there, stands]
        rfl
      simp only [Store.put, DirectoryStore.put, valid, there, if_pos present]

theorem delete_eq (stores : s.Stores k) :
    (s.delete k.id).1 = .ok true ∧ (s.delete k.id).2.Free k.id := by
  obtain ⟨layout, stands⟩ := stores
  cases s with
  | memory m =>
    simp [Store.delete, MemoryStore.delete, Free, Std.ExtTreeMap.contains_eq_isSome_getElem?, stands]
  | directory d =>
    simp only [Store.delete, DirectoryStore.delete, stands, true_and]
    change DirectoryStore.entry? _ _ = none
    rw [DirectoryStore.lookup_erase, if_pos rfl]

end Stores

end Store

end Rollback
