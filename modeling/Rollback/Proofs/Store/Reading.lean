import Rollback.Proofs.Store.Deleting

/-!
# What is read back

A checkpoint that is stored is read back with the header that it was stored with, and makes no
difference to what is read under other ids (`retrieve_put`). To delete and to clear only takes
checkpoints away (`Within`). So all that a store has of an owner is what was stored in that name,
each under its own id, if the store had nothing of the owner at first (`HasOnly`).
-/

namespace Rollback

theorem MemoryStore.retrieve_eq_some_iff {m : MemoryStore} {id : CheckpointId} {k : Checkpoint} :
    (Store.memory m).retrieve id = .ok (some k) ↔
      ∃ entry, m.entries[id]? = some entry ∧ Checkpoint.reader.run entry.text = .ok k := by
  rw [Store.retrieve, retrieve]
  cases m.entries[id]? with
  | none => simp
  | some entry => cases read : Checkpoint.reader.run entry.text <;> simp [read]

namespace DirectoryStore

theorem retrieve_eq_some_iff {d : DirectoryStore} {id : CheckpointId} {k : Checkpoint} :
    (Store.directory d).retrieve id = .ok (some k) ↔
      ∃ text, d.entry? (fileName id) = some (.file text) ∧ Checkpoint.reader.run text = .ok k := by
  rw [Store.retrieve, retrieve]
  cases d.entry? (fileName id) with
  | none => simp
  | some entry =>
    cases entry with
    | directory => simp
    | file text => cases read : Checkpoint.reader.run text <;> simp [read]

/-- Whatever is left behind was there before. -/
theorem getElem?_removeAll {entries : NameMap DirectoryEntry}
    {files : List (String × DirectoryEntry)} {name : String} {entry : DirectoryEntry}
    (left : (removeAll entries files).2[name]? = some entry) : entries[name]? = some entry := by
  induction files generalizing entries with
  | nil => exact left
  | cons file rest ih =>
    obtain ⟨other, text | _⟩ := file
    · have found := ih left
      rw [Std.ExtTreeMap.getElem?_erase] at found
      split at found
      · cases found
      · exact found
    · exact left

end DirectoryStore

namespace Store

variable {s s' : Store} {c k : Checkpoint} {h : Header} {id : CheckpointId} {name owner : String}
  {own : List Header}

theorem retrieve_put (stored : s.put c = (.ok (), s')) (read : s'.retrieve id = .ok (some k)) :
    id = c.id ∧ k.header = c.header ∨ s.retrieve id = .ok (some k) := by
  cases s with
  | memory m =>
    obtain ⟨_, rfl⟩ := put_memory stored
    obtain ⟨entry, stands, read⟩ := MemoryStore.retrieve_eq_some_iff.mp read
    rw [Std.ExtTreeMap.getElem?_insert] at stands
    split at stands
    · rename_i same
      rw [Std.LawfulEqCmp.compare_eq_iff_eq] at same
      cases stands
      exact Or.inl ⟨same.symm, Checkpoint.header_of_reader_render read⟩
    · exact Or.inr (MemoryStore.retrieve_eq_some_iff.mpr ⟨entry, stands, read⟩)
  | directory d =>
    obtain ⟨entries, here, _, rfl⟩ := put_directory stored
    obtain ⟨text, stands, read⟩ := DirectoryStore.retrieve_eq_some_iff.mp read
    rw [DirectoryStore.lookup_eq rfl] at stands
    simp only [Std.ExtTreeMap.getElem?_insert, Std.ExtTreeMap.getElem?_erase,
      Std.LawfulEqCmp.compare_eq_iff_eq] at stands
    split at stands
    · rename_i same
      cases stands
      exact Or.inl ⟨(DirectoryStore.fileName_inj same).symm,
        Checkpoint.header_of_reader_render read⟩
    · split at stands
      · cases stands
      · rw [← DirectoryStore.lookup_eq here] at stands
        exact Or.inr (DirectoryStore.retrieve_eq_some_iff.mpr ⟨text, stands, read⟩)

theorem retrieve_of_get (read : s.get id = .ok c) : s.retrieve id = .ok (some c) := by
  unfold get at read
  split at read
  · rename_i found
    cases read
    exact found
  · cases read
  · cases read

theorem delete_error {e : Error} (fails : s.delete id = (.error e, s')) : s' = s := by
  cases s with
  | memory m => cases fails
  | directory d =>
    simp only [delete, DirectoryStore.delete, Prod.mk.injEq] at fails
    obtain ⟨error, rfl⟩ := fails
    split at error
    · cases error
    · rfl
    · cases error

/-! ## What is taken away -/

/-- Whatever a store holds and gives back, another one held and gave back before. -/
structure Within (after before : Store) : Prop where
  holdsAt : ∀ {name h}, after.HoldsAt name h → before.HoldsAt name h
  retrieves : ∀ {id c}, after.retrieve id = .ok (some c) → before.retrieve id = .ok (some c)

theorem Within.refl (s : Store) : s.Within s := ⟨fun holds => holds, fun read => read⟩

theorem Within.trans {s'' : Store} (second : s''.Within s') (first : s'.Within s) : s''.Within s :=
  ⟨fun holds => first.holdsAt (second.holdsAt holds),
    fun read => first.retrieves (second.retrieves read)⟩

theorem Within.holds (within : s'.Within s) (holds : s'.Holds h) : s.Holds h := by
  obtain ⟨name, holds⟩ := holds
  exact ⟨name, within.holdsAt holds⟩

theorem within_delete {present : Outcome Bool} (deleted : s.delete id = (present, s')) :
    s'.Within s := by
  refine ⟨holdsAt_delete deleted, ?_⟩
  intro other c read
  by_cases same : other = id
  · subst same
    cases present with
    | error e => rwa [delete_error deleted] at read
    | ok _ =>
      rw [retrieve_deleted deleted] at read
      cases read
  · rwa [retrieve_delete same deleted] at read

theorem within_clear {result : Outcome Unit} (cleared : s.clear = (result, s')) : s'.Within s := by
  cases s with
  | memory m =>
    cases cleared
    constructor
    · rintro name h ⟨id, text, _, stands⟩
      simp at stands
    · intro id c read
      obtain ⟨_, stands, _⟩ := MemoryStore.retrieve_eq_some_iff.mp read
      simp at stands
  | directory d =>
    simp only [clear, Prod.mk.injEq] at cleared
    obtain ⟨_, rfl⟩ := cleared
    unfold DirectoryStore.clear
    split
    · exact .refl _
    · rename_i entries present
      have kept : ∀ name entry, DirectoryStore.entry? { d with
          entries := some (DirectoryStore.removeAll entries (DirectoryStore.files entries)).2 } name
            = some entry → d.entry? name = some entry := by
        intro name entry stands
        rw [DirectoryStore.lookup_eq rfl] at stands
        rw [DirectoryStore.lookup_eq present]
        exact DirectoryStore.getElem?_removeAll stands
      constructor
      · rintro name h ⟨named, text, stands, read⟩
        exact ⟨named, text, kept _ _ stands, read⟩
      · intro id c read
        obtain ⟨text, stands, read⟩ := DirectoryStore.retrieve_eq_some_iff.mp read
        exact DirectoryStore.retrieve_eq_some_iff.mpr ⟨text, kept _ _ stands, read⟩

/-- Nothing but a directory of a checkpoint's name keeps it from being deleted. -/
def Deletable (s : Store) (id : CheckpointId) : Prop :=
  ∃ present s', s.delete id = (.ok present, s')

theorem deletable_directory {d : DirectoryStore} : (directory d).Deletable id ↔
    d.entry? (DirectoryStore.fileName id) ≠ some .directory := by
  simp only [Deletable, delete, DirectoryStore.delete, Prod.mk.injEq]
  cases d.entry? (DirectoryStore.fileName id) with
  | none => simp
  | some entry => cases entry <;> simp

theorem deletable_of_holdsAt (holds : s.HoldsAt (DirectoryStore.fileName id) h) :
    s.Deletable id := by
  cases s with
  | memory m => exact ⟨_, _, rfl⟩
  | directory d =>
    obtain ⟨_, text, stands, _⟩ := holds
    rw [deletable_directory, stands]
    simp

theorem Deletable.delete {present : Outcome Bool} {other : CheckpointId}
    (deletable : s.Deletable id) (deleted : s.delete other = (present, s')) : s'.Deletable id := by
  cases s with
  | memory m =>
    rw [delete_memory deleted]
    exact ⟨_, _, rfl⟩
  | directory d =>
    rw [deletable_directory] at deletable
    obtain rfl | rfl := delete_directory deleted
    · rw [deletable_directory, DirectoryStore.lookup_erase]
      split
      · simp
      · exact deletable
    · exact deletable_directory.mpr deletable

/-! ## What an owner has -/

/-- The store holds a checkpoint of this owner under this id. -/
def Has (s : Store) (owner : String) (id : CheckpointId) : Prop :=
  ∃ h, s.Holds h ∧ h.owner = owner ∧ h.id = id

theorem Within.has (within : s'.Within s) (has : s'.Has owner id) : s.Has owner id := by
  obtain ⟨h, holds, mine, named⟩ := has
  exact ⟨h, within.holds holds, mine, named⟩

theorem has_put (stored : s.put c = (.ok (), s')) (has : s'.Has owner id) :
    c.header.owner = owner ∧ c.id = id ∨ s.Has owner id := by
  obtain ⟨h, holds, mine, named⟩ := has
  obtain rfl | before := holds_put stored holds
  · exact Or.inl ⟨mine, named⟩
  · exact Or.inr ⟨h, before, mine, named⟩

/-- All that a store has of an owner is among these, each under its own id. -/
structure HasOnly (s : Store) (owner : String) (own : List Header) : Prop where
  listed : ∀ {name h}, s.HoldsAt name h → h.owner = owner →
    h ∈ own ∧ name = DirectoryStore.fileName h.id
  read : ∀ {id c}, s.retrieve id = .ok (some c) → c.header.owner = owner →
    c.header ∈ own ∧ c.id = id

/-- The store has nothing of an owner, neither listed nor to be read. -/
def Lacks (s : Store) (owner : String) : Prop := s.HasOnly owner []

theorem lacks_empty (layout : Layout) (owner : String) :
    (memory (.empty layout)).Lacks owner := by
  constructor
  · rintro name h ⟨id, text, _, stands⟩
    simp [MemoryStore.empty] at stands
  · intro id c read
    obtain ⟨_, stands, _⟩ := MemoryStore.retrieve_eq_some_iff.mp read
    simp [MemoryStore.empty] at stands

namespace HasOnly

theorem within (only : s.HasOnly owner own) (within : s'.Within s) : s'.HasOnly owner own :=
  ⟨fun holds => only.listed (within.holdsAt holds), fun read => only.read (within.retrieves read)⟩

theorem mem (only : s.HasOnly owner own) (holds : s.Holds h) (mine : h.owner = owner) :
    h ∈ own := by
  obtain ⟨_, holds⟩ := holds
  exact (only.listed holds mine).1

theorem put (only : s.HasOnly owner own) (stored : s.put c = (.ok (), s')) :
    s'.HasOnly owner (own ++ [c.header]) := by
  constructor
  · intro name h holds mine
    obtain ⟨named, rfl⟩ | before := holdsAt_put stored holds
    · exact ⟨List.mem_concat_self, named⟩
    · obtain ⟨member, named⟩ := only.listed before mine
      exact ⟨List.mem_append_left _ member, named⟩
  · intro id k read mine
    obtain ⟨rfl, same⟩ | before := retrieve_put stored read
    · exact ⟨same ▸ List.mem_concat_self, congrArg Header.id same⟩
    · obtain ⟨member, named⟩ := only.read before mine
      exact ⟨List.mem_append_left _ member, named⟩

theorem put_other (only : s.HasOnly owner own) (stored : s.put c = (.ok (), s'))
    (other : c.header.owner ≠ owner) : s'.HasOnly owner own := by
  constructor
  · intro name h holds mine
    obtain ⟨_, rfl⟩ | before := holdsAt_put stored holds
    · exact absurd mine other
    · exact only.listed before mine
  · intro id k read mine
    obtain ⟨_, same⟩ | before := retrieve_put stored read
    · exact absurd (same ▸ mine) other
    · exact only.read before mine

end HasOnly

end Store

end Rollback
