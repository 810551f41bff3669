import Rollback.Proofs.Checkpoint.Text
import Rollback.Proofs.NameMap
import Rollback.Proofs.Outcome
import Rollback.Proofs.Text.Hexadecimal
import Rollback.Store.Basic

/-!
# What stores list

A store that can list all of its headers lists those of the checkpoints that were stored. A
checkpoint that is stored adds its own header and changes no other (`headers_put`), and one that is
refused changes nothing (`put_error`).
-/

namespace Rollback

/-- All headers are those of any owner. -/
theorem Store.headers_none (s : Store) : s.headers none = s.listAll.bind (·.mapM id) := by
  have all : ∀ found : List (Outcome Header), found.filter (isOf none) = found := by
    intro found
    rw [List.filter_eq_self]
    rintro (e | h) _ <;> rfl
  simp only [headers, list, all]
  cases s.listAll <;> rfl

/-- The headers of one owner are those among all; one that cannot be read may be anybody's. -/
theorem Store.headers_some (s : Store) (owner : String) : s.headers (some owner) =
    (s.headers none).map fun found => found.filter (·.owner = owner) := by
  have part : ∀ found : List (Outcome Header), (found.filter (isOf (some owner))).mapM id =
      (found.mapM id).map fun headers => headers.filter (·.owner = owner) := by
    intro found
    induction found with
    | nil => rfl
    | cons first rest ih =>
      obtain e | h := first
      · rfl
      · by_cases own : h.owner = owner
        · rw [List.filter_cons_of_pos (by simp [isOf, own]), List.mapM_cons, List.mapM_cons, ih]
          cases rest.mapM id <;> simp [bind, Except.bind, Except.map, pure, Except.pure, own]
        · rw [List.filter_cons_of_neg (by simp [isOf, Ne.symm own]), List.mapM_cons, ih]
          cases rest.mapM id <;> simp [bind, Except.bind, Except.map, pure, Except.pure, own]
  rw [headers_none, headers, list]
  cases s.listAll with
  | error e => rfl
  | ok found => exact part found

/-! ## In memory -/

namespace MemoryStore

variable {m m' : MemoryStore} {c : Checkpoint} {e : Error}

theorem put_error (refused : m.put c = (.error e, m')) : m' = m := by
  unfold put at refused
  split at refused
  · cases refused
    rfl
  · split at refused <;> cases refused
    rfl

theorem headers_eq (m : MemoryStore) : (Store.memory m).headers none =
    .ok (m.entries.toList.map fun entry => entry.2.header) := by
  rw [Store.headers_none, Store.listAll, list, Except.bind, Outcome.mapM_eq_ok_iff,
    List.forall₂_map_left_iff, List.forall₂_map_right_iff, List.forall₂_same]
  exact fun _ _ => rfl

/-- A checkpoint is stored under its id, which was not taken. -/
theorem put_ok (stored : m.put c = (.ok (), m')) : c.id ∉ m.entries ∧
    m' = { m with entries := m.entries.insert c.id ⟨c.header, c.json.render m.layout⟩ } := by
  unfold put at stored
  split at stored
  · cases stored
  · split at stored
    · cases stored
    · rename_i fresh
      cases stored
      exact ⟨fresh, rfl⟩

theorem headers_put {headers : List Header} (stored : m.put c = (.ok (), m'))
    (listed : (Store.memory m').headers none = .ok headers) :
    ∃ before, (Store.memory m).headers none = .ok before ∧
      headers.Perm (c.header :: before) := by
  obtain ⟨fresh, rfl⟩ := put_ok stored
  rw [headers_eq] at listed
  cases listed
  exact ⟨_, headers_eq m, (toList_insert_perm fresh _).map _⟩

end MemoryStore

/-! ## In a directory -/

namespace DirectoryStore

theorem isFileName_fileName (id : CheckpointId) : isFileName (fileName id) = true := by
  have behind : ".json".toList <:+ (fileName id).toList := by
    rw [fileName, String.toList_append]
    exact List.suffix_append _ _
  have longer : 5 < (fileName id).length := by
    rw [fileName, String.length_append, CheckpointId.length_toString]
    omega
  rw [isFileName, Bool.and_eq_true, decide_eq_true_eq, List.isSuffixOf_iff_suffix]
  exact ⟨longer, behind⟩

theorem isFileName_unfinishedName (id : CheckpointId) : isFileName (unfinishedName id) = false := by
  have other : ¬ ".json".toList <:+ (unfinishedName id).toList := by
    rintro ⟨front, same⟩
    have last := congrArg List.getLast? same
    rw [unfinishedName, String.toList_append] at last
    simp at last
  rw [isFileName, Bool.and_eq_false_iff, ← Bool.not_eq_true, ← Bool.not_eq_true,
    List.isSuffixOf_iff_suffix]
  exact Or.inr other

variable {d d' : DirectoryStore} {c : Checkpoint} {e : Error} {entries : NameMap DirectoryEntry}

theorem put_error (refused : d.put c = (.error e, d')) : d' = d := by
  unfold put at refused
  repeat' split at refused
  all_goals cases refused
  all_goals rfl

theorem mem_files {name : String} {entry : DirectoryEntry} :
    (name, entry) ∈ files entries ↔ entries[name]? = some entry ∧ isFileName name = true := by
  rw [files, List.mem_filter, Std.ExtTreeMap.mem_toList_iff_getElem?_eq_some]

theorem files_nodup (entries : NameMap DirectoryEntry) : (files entries).Nodup :=
  (toList_nodup entries).filter _

/-- A new file among the others; a name for unfinished files makes no difference. -/
theorem files_perm {id : CheckpointId} (fresh : fileName id ∉ entries) (entry : DirectoryEntry) :
    (files ((entries.erase (unfinishedName id)).insert (fileName id) entry)).Perm
      ((fileName id, entry) :: files entries) := by
  have absent : (fileName id, entry) ∉ files entries := by
    rw [mem_files, getElem?_neg _ _ fresh]
    simp
  rw [List.perm_ext_iff_of_nodup (files_nodup _) (List.nodup_cons.mpr ⟨absent, files_nodup _⟩)]
  rintro ⟨name, other⟩
  simp only [List.mem_cons, mem_files, Prod.mk.injEq, Std.ExtTreeMap.getElem?_insert,
    Std.ExtTreeMap.getElem?_erase, Std.LawfulEqCmp.compare_eq_iff_eq]
  by_cases same : fileName id = name
  · subst same
    simp [getElem?_neg _ _ fresh, isFileName_fileName, eq_comm]
  · by_cases unfinished : unfinishedName id = name
    · subst unfinished
      simp [same, isFileName_unfinishedName, Ne.symm same]
    · simp [same, unfinished, Ne.symm same]

/-- A header is listed for each file that is named like a checkpoint, and each of them holds one. -/
theorem headers_eq_ok_iff {headers : List Header} :
    (Store.directory d).headers none = .ok headers ↔ ∃ entries, d.entries = some entries ∧
      List.Forall₂ (fun file h => ∃ text, file.2 = .file text ∧
        Checkpoint.headerReader.run text = .ok h) (files entries) headers := by
  rw [Store.headers_none, Store.listAll, list]
  cases d.entries with
  | none => simp [Except.bind]
  | some entries =>
    simp only [Option.some.injEq, exists_eq_left']
    rw [Outcome.bind_mapM_id_eq_ok_iff]
    apply iff_of_eq
    congr 1
    funext file h
    obtain ⟨name, text | _⟩ := file
    · simp only [header]
      cases read : Checkpoint.headerReader.run text <;> simp [read]
    · simp

/-- A checkpoint is stored in the file that is named by its id, which was not there. -/
theorem put_ok (stored : d.put c = (.ok (), d')) : ∃ entries, d.entries = some entries ∧
    fileName c.id ∉ entries ∧
    d' = { d with entries := some ((entries.erase (unfinishedName c.id)).insert (fileName c.id)
      (.file (c.json.render d.layout))) } := by
  unfold put at stored
  split at stored
  · cases stored
  · split at stored
    · cases stored
    · rename_i entries present
      split at stored
      · cases stored
      · split at stored
        · cases stored
        · rename_i fresh _
          cases stored
          exact ⟨entries, present, fresh, rfl⟩

theorem headers_put {headers : List Header} (stored : d.put c = (.ok (), d'))
    (listed : (Store.directory d').headers none = .ok headers) :
    ∃ before, (Store.directory d).headers none = .ok before ∧
      headers.Perm (c.header :: before) := by
  obtain ⟨entries, present, fresh, rfl⟩ := put_ok stored
  obtain ⟨_, same, read⟩ := headers_eq_ok_iff.mp listed
  cases same
  obtain ⟨others, read, perm⟩ :=
    List.perm_comp_forall₂ (files_perm fresh (.file (c.json.render d.layout))).symm read
  obtain ⟨h, before, ⟨text, same, first⟩, rest, rfl⟩ := List.forall₂_cons_left_iff.mp read
  cases same
  cases Checkpoint.header_of_render first
  exact ⟨before, headers_eq_ok_iff.mpr ⟨entries, present, rest⟩, perm.symm⟩

end DirectoryStore

/-! ## Stores -/

namespace Store

variable {s s' : Store} {c : Checkpoint} {e : Error} {headers : List Header}

/-- A checkpoint that is refused leaves the store as it was. -/
theorem put_error (refused : s.put c = (.error e, s')) : s' = s := by
  cases s with
  | memory m =>
    simp only [put, Prod.mk.injEq] at refused
    obtain ⟨error, rfl⟩ := refused
    exact congrArg memory (MemoryStore.put_error (Prod.ext error rfl))
  | directory d =>
    simp only [put, Prod.mk.injEq] at refused
    obtain ⟨error, rfl⟩ := refused
    exact congrArg directory (DirectoryStore.put_error (Prod.ext error rfl))

/-- A stored checkpoint adds its header to those that were listed before. -/
theorem headers_put (stored : s.put c = (.ok (), s')) (listed : s'.headers none = .ok headers) :
    ∃ before, s.headers none = .ok before ∧ headers.Perm (c.header :: before) := by
  cases s with
  | memory m =>
    simp only [put, Prod.mk.injEq] at stored
    obtain ⟨ok, rfl⟩ := stored
    exact MemoryStore.headers_put (Prod.ext ok rfl) listed
  | directory d =>
    simp only [put, Prod.mk.injEq] at stored
    obtain ⟨ok, rfl⟩ := stored
    exact DirectoryStore.headers_put (Prod.ext ok rfl) listed

end Store

end Rollback
