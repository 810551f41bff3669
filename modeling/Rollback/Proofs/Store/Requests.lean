import Mathlib.Data.Multiset.Defs
import Rollback.Proofs.Checkpoint.Reading
import Rollback.Proofs.Store.Reading

/-!
# Requests to a store

A store answers one request after the other. What it holds of a checkpoint is its text, and that
stays as it was written until the checkpoint is deleted or the store is cleared (`Stores.serve`). So
whether a stored checkpoint can be retrieved is decided when it is stored (`retrieve_after_put`).
-/

namespace Rollback.Store

/-- What a store is asked for. -/
inductive Request where
  | put (c : Checkpoint)
  | retrieve (id : CheckpointId)
  | get (id : CheckpointId)
  | delete (id : CheckpointId)
  | list (owner : Option String)
  | headers
  | clear
  /-- The directory is opened again, in any layout; what is in memory cannot be opened again. -/
  | reopen (layout : Layout)

/-- What it answers. The order in which headers are listed means nothing. -/
inductive Reply where
  | done (result : Outcome Unit)
  | retrieved (result : Outcome (Option Checkpoint))
  | got (result : Outcome Checkpoint)
  | deleted (result : Outcome Bool)
  | listed (result : Outcome (Multiset (Outcome Header)))
  | headers (result : Outcome (Multiset Header))

/-- All that is stored under an id is gone after the request. -/
def Request.Removes (id : CheckpointId) : Request → Prop
  | delete other => other = id
  | clear => True
  | _ => False

def reopen (s : Store) (layout : Layout) : Outcome Unit × Store :=
  match s with
  | memory m => (.ok (), memory m)
  | directory d =>
    match DirectoryStore.openAt d.path layout (.ok (d.entries.getD ∅)) with
    | .ok d => (.ok (), directory d)
    | .error e => (.error e, directory d)

def answer (s : Store) : Request → Reply × Store
  | .put c => (.done (s.put c).1, (s.put c).2)
  | .retrieve id => (.retrieved (s.retrieve id), s)
  | .get id => (.got (s.get id), s)
  | .delete id => (.deleted (s.delete id).1, (s.delete id).2)
  | .list owner => (.listed ((s.list owner).map .ofList), s)
  | .headers => (.headers ((s.headers none).map .ofList), s)
  | .clear => (.done s.clear.1, s.clear.2)
  | .reopen layout => (.done (s.reopen layout).1, (s.reopen layout).2)

/-- Answers requests one after the other. -/
def serve {α : Type} (answer : α → Request → Reply × α) (a : α) : List Request → List Reply × α
  | [] => ([], a)
  | r :: rest =>
    let (reply, a) := answer a r
    let (replies, a) := serve answer a rest
    (reply :: replies, a)

theorem serve_append {α : Type} (answer : α → Request → Reply × α) (a : α)
    (front back : List Request) : serve answer a (front ++ back) =
      ((serve answer a front).1 ++ (serve answer (serve answer a front).2 back).1,
        (serve answer (serve answer a front).2 back).2) := by
  induction front generalizing a with
  | nil => rfl
  | cons r rest ih => simp only [List.cons_append, serve, ih]

variable {s s' : Store} {c k : Checkpoint} {id : CheckpointId}

/-! ## What is stored -/

/-- The store holds the text of the checkpoint under its id. -/
def Stores (s : Store) (c : Checkpoint) : Prop :=
  ∃ layout, match s with
    | memory m => m.entries[c.id]? = some ⟨c.header, c.json.render layout⟩
    | directory d => d.entry? (DirectoryStore.fileName c.id) =
        some (.file (c.json.render layout))

/-- The store holds nothing under the id. -/
def Free (s : Store) (id : CheckpointId) : Prop :=
  match s with
  | memory m => m.entries[id]? = none
  | directory d => d.entry? (DirectoryStore.fileName id) = none

theorem fileName_ne_unfinishedName (id other : CheckpointId) :
    DirectoryStore.fileName id ≠ DirectoryStore.unfinishedName other := by
  intro same
  have named := DirectoryStore.isFileName_fileName id
  rw [same, DirectoryStore.isFileName_unfinishedName] at named
  contradiction

theorem lookup_put {d : DirectoryStore} {entries : NameMap DirectoryEntry}
    (present : d.entries = some entries) (c : Checkpoint) (text : String) (name : String) :
    DirectoryStore.entry? { d with
      entries := some ((entries.erase (DirectoryStore.unfinishedName c.id)).insert
        (DirectoryStore.fileName c.id) (.file text)) } name =
      if DirectoryStore.fileName c.id = name then some (.file text)
      else if DirectoryStore.unfinishedName c.id = name then none
      else d.entry? name := by
  rw [DirectoryStore.lookup_eq rfl, DirectoryStore.lookup_eq present]
  simp only [Std.ExtTreeMap.getElem?_insert, Std.ExtTreeMap.getElem?_erase,
    Std.LawfulEqCmp.compare_eq_iff_eq]

theorem stores_put (stored : s.put c = (.ok (), s')) : s'.Stores c := by
  cases s with
  | memory m =>
    obtain ⟨_, rfl⟩ := put_memory stored
    exact ⟨m.layout, by simp⟩
  | directory d =>
    obtain ⟨entries, present, _, rfl⟩ := put_directory stored
    refine ⟨d.layout, ?_⟩
    dsimp only
    rw [lookup_put present, if_pos rfl]

theorem free_of_put (stored : s.put c = (.ok (), s')) : s.Free c.id := by
  cases s with
  | memory m => exact getElem?_neg _ _ (put_memory stored).1
  | directory d =>
    obtain ⟨entries, present, fresh, _⟩ := put_directory stored
    change d.entry? _ = none
    rw [DirectoryStore.lookup_eq present]
    exact getElem?_neg _ _ fresh

theorem Stores.not_free (stores : s.Stores c) : ¬ s.Free c.id := by
  obtain ⟨layout, stands⟩ := stores
  cases s with
  | memory m => exact fun free => nomatch stands.symm.trans free
  | directory d => exact fun free => nomatch stands.symm.trans free

theorem Stores.put (stores : s.Stores c) (k : Checkpoint) : (s.put k).2.Stores c := by
  obtain ⟨result, s', stored⟩ : ∃ result s', s.put k = (result, s') := ⟨_, _, rfl⟩
  rw [stored]
  cases result with
  | error e =>
    rw [put_error stored]
    exact stores
  | ok _ =>
    -- under the same id the other checkpoint would have been refused
    have different : c.id ≠ k.id := fun same => stores.not_free (same ▸ free_of_put stored)
    obtain ⟨layout, stands⟩ := stores
    refine ⟨layout, ?_⟩
    cases s with
    | memory m =>
      obtain ⟨_, rfl⟩ := put_memory stored
      simpa [Std.ExtTreeMap.getElem?_insert, Ne.symm different] using stands
    | directory d =>
      obtain ⟨entries, present, _, rfl⟩ := put_directory stored
      dsimp only
      rw [lookup_put present, if_neg fun same => different (DirectoryStore.fileName_inj same).symm,
        if_neg (fileName_ne_unfinishedName _ _).symm]
      exact stands

theorem Stores.delete (stores : s.Stores c) (other : id ≠ c.id) : (s.delete id).2.Stores c := by
  obtain ⟨result, s', deleted⟩ : ∃ result s', s.delete id = (result, s') := ⟨_, _, rfl⟩
  rw [deleted]
  obtain ⟨layout, stands⟩ := stores
  refine ⟨layout, ?_⟩
  cases s with
  | memory m =>
    rw [delete_memory deleted]
    simpa [Std.ExtTreeMap.getElem?_erase, other] using stands
  | directory d =>
    obtain rfl | rfl := delete_directory deleted
    · dsimp only
      rw [DirectoryStore.lookup_erase, if_neg fun same => other (DirectoryStore.fileName_inj same)]
      exact stands
    · exact stands

theorem reopen_directory (d : DirectoryStore) (layout : Layout) :
    (directory d).reopen layout =
      (.ok (), directory { d with layout, entries := some (d.entries.getD ∅) }) := rfl

theorem entry?_reopen (d : DirectoryStore) (layout : Layout) (name : String) :
    DirectoryStore.entry? { d with layout, entries := some (d.entries.getD ∅) } name =
      d.entry? name := by
  rw [DirectoryStore.lookup_eq rfl]
  cases present : d.entries with
  | none => simp [DirectoryStore.entry?, present]
  | some entries => rw [DirectoryStore.lookup_eq present, Option.getD_some]

theorem Stores.reopen (stores : s.Stores c) (layout : Layout) : (s.reopen layout).2.Stores c := by
  cases s with
  | memory m => exact stores
  | directory d =>
    obtain ⟨written, stands⟩ := stores
    refine ⟨written, ?_⟩
    rw [reopen_directory]
    dsimp only
    rw [entry?_reopen]
    exact stands

theorem Stores.answer (stores : s.Stores c) {r : Request} (kept : ¬ r.Removes c.id) :
    (s.answer r).2.Stores c := by
  cases r with
  | put k => exact stores.put k
  | delete id => exact stores.delete kept
  | clear => exact absurd trivial kept
  | reopen layout => exact stores.reopen layout
  | retrieve _ | get _ | list _ | headers => exact stores

theorem Stores.serve (stores : s.Stores c) {requests : List Request}
    (kept : ∀ r ∈ requests, ¬ r.Removes c.id) :
    (Store.serve Store.answer s requests).2.Stores c := by
  induction requests generalizing s with
  | nil => exact stores
  | cons r rest ih =>
    rw [List.forall_mem_cons] at kept
    exact ih (stores.answer kept.1) kept.2

/-! ## What is retrieved -/

/-- What is retrieved is what the text of the checkpoint is read to. -/
theorem Stores.exists_retrieve (stores : s.Stores c) : ∃ layout, s.retrieve c.id =
    match Checkpoint.reader.run (c.json.render layout) with
    | .ok k => .ok (some k)
    | .error f => .error (.unreadable f) := by
  obtain ⟨layout, stands⟩ := stores
  refine ⟨layout, ?_⟩
  cases s with
  | memory m =>
    cases read : Checkpoint.reader.run (c.json.render layout) <;>
      simp only [retrieve, MemoryStore.retrieve, stands, read]
  | directory d =>
    cases read : Checkpoint.reader.run (c.json.render layout) <;>
      simp only [retrieve, DirectoryStore.retrieve, stands, read]

theorem Stores.retrieve_readBack (stores : s.Stores c) (read : c.ReadBack) :
    s.retrieve c.id = .ok (some c) := by
  obtain ⟨layout, retrieved⟩ := stores.exists_retrieve
  rw [retrieved, read layout]

theorem Stores.retrieve_legible (stores : s.Stores c)
    (readable : Instant.inRange c.header.createdAt.date = true)
    (legible : c.json.Legible Place.top.room) : ∃ k, s.retrieve c.id = .ok (some k) ∧ c.Recovers k := by
  obtain ⟨layout, retrieved⟩ := stores.exists_retrieve
  obtain ⟨k, same, recovers⟩ := (Checkpoint.reads_render readable layout).succeeds legible
  exact ⟨k, by rw [retrieved, same], recovers⟩

theorem Stores.retrieve_illegible (stores : s.Stores c)
    (readable : Instant.inRange c.header.createdAt.date = true)
    (illegible : ¬ c.json.Legible Place.top.room) :
    s.retrieve c.id = .error (.unreadable .syntaxError) := by
  obtain ⟨layout, retrieved⟩ := stores.exists_retrieve
  rw [retrieved, (Checkpoint.reads_render readable layout).fails illegible]

/-- A checkpoint that was stored is retrieved until it is deleted or the store is cleared, exactly if
its document has no more levels than a reader enters and each of its fractions is read as a number;
without fractions it is then as it was. Otherwise it is stored all the same, and cannot be read. -/
theorem retrieve_after_put (readable : ∃ text, Instant.ofString? text = some c.header.createdAt)
    (stored : s.put c = (.ok (), s')) {requests : List Request}
    (kept : ∀ r ∈ requests, ¬ r.Removes c.id) :
    (c.json.depth ≤ 127 ∧ (∀ x ∈ c.json.fractions, Tree.ofDouble x ≠ .overflow) →
      ∃ k, (serve answer s' requests).2.retrieve c.id = .ok (some k) ∧ k.header = c.header ∧
        (c.json.fractions = [] → k = c)) ∧
    (¬ (c.json.depth ≤ 127 ∧ ∀ x ∈ c.json.fractions, Tree.ofDouble x ≠ .overflow) →
      (serve answer s' requests).2.retrieve c.id = .error (.unreadable .syntaxError)) := by
  obtain ⟨_, read⟩ := readable
  have range := Instant.inRange_of_ofString? read
  have stores := (stores_put stored).serve kept
  rw [← Checkpoint.legible_top_iff]
  refine ⟨fun legible => ?_, stores.retrieve_illegible range⟩
  obtain ⟨k, same, recovers⟩ := stores.retrieve_legible range legible
  exact ⟨k, same, recovers.header, recovers.whole⟩

/-- A value of so many levels. -/
def nested : Nat → Value
  | 0 => .null
  | levels + 1 => .array [nested levels]

def firstOfSink : Header :=
  ⟨⟨1, by decide⟩, "sink", Instant.epoch.tick, (∅ : Dependencies).insert "sink" .nil⟩

/-- A checkpoint with a field of so many levels. -/
def nestedIn (levels : Nat) : Checkpoint where
  header := firstOfSink
  snapshots := (∅ : NameMap Snapshot).insert "window"
    ⟨(∅ : Fields).insert "elements" (nested levels)⟩

theorem validate_nestedIn (levels : Nat) : (nestedIn levels).header.validate = .ok () := by
  have valid : firstOfSink.validate = .ok () := by decide +kernel
  exact valid

theorem put_nestedIn_memory (levels : Nat) :
    ∃ s', (memory (.empty .compact)).put (nestedIn levels) = (.ok (), s') := by
  simp only [put, MemoryStore.put, validate_nestedIn]
  rw [if_neg (by simp [MemoryStore.empty])]
  exact ⟨_, rfl⟩

theorem put_nestedIn_directory (levels : Nat) :
    ∃ s', (directory ⟨"store", .compact, some ∅⟩).put (nestedIn levels) = (.ok (), s') := by
  simp only [put, DirectoryStore.put, validate_nestedIn]
  rw [if_neg (by simp), if_neg (by simp)]
  exact ⟨_, rfl⟩

/-- With 123 levels a field can still be read, also after other checkpoints were deleted. -/
theorem retrieve_after_put_nestedIn : ∃ s',
    (memory (.empty .compact)).put (nestedIn 123) = (.ok (), s') ∧
      (serve answer s' [.delete .nil, .headers]).2.retrieve (nestedIn 123).id =
        .ok (some (nestedIn 123)) := by
  obtain ⟨s', stored⟩ := put_nestedIn_memory 123
  have readable : Instant.ofString? "1970-01-01T00:00:00.000001Z" =
      some (nestedIn 123).header.createdAt := by decide +kernel
  have whole : (nestedIn 123).json.fractions = [] := by decide +kernel
  have kept : ∀ r ∈ [Request.delete .nil, .headers], ¬ r.Removes (nestedIn 123).id := by
    simp only [List.forall_mem_cons, Request.Removes]
    exact ⟨by decide, by simp⟩
  obtain ⟨k, same, -, recovers⟩ := (retrieve_after_put ⟨_, readable⟩ stored kept).1
    ⟨by decide +kernel, by simp [whole]⟩
  exact ⟨s', stored, by rw [same, recovers whole]⟩

theorem retrieve_nestedIn (stored : s.put (nestedIn 124) = (.ok (), s')) :
    s'.retrieve (nestedIn 124).id = .error (.unreadable .syntaxError) := by
  refine (stores_put stored).retrieve_illegible (by decide +kernel) ?_
  rw [Checkpoint.legible_top_iff]
  exact fun legible => absurd legible.1 (by decide +kernel)

/-- With one level more it is stored and cannot be read, in memory as in a directory. -/
theorem not_retrievable_nestedIn :
    (∃ s', (memory (.empty .compact)).put (nestedIn 124) = (.ok (), s') ∧
      s'.retrieve (nestedIn 124).id = .error (.unreadable .syntaxError)) ∧
    ∃ s', (directory ⟨"store", .compact, some ∅⟩).put (nestedIn 124) = (.ok (), s') ∧
      s'.retrieve (nestedIn 124).id = .error (.unreadable .syntaxError) := by
  obtain ⟨_, inMemory⟩ := put_nestedIn_memory 124
  obtain ⟨_, inDirectory⟩ := put_nestedIn_directory 124
  exact ⟨⟨_, inMemory, retrieve_nestedIn inMemory⟩, _, inDirectory, retrieve_nestedIn inDirectory⟩

end Rollback.Store
