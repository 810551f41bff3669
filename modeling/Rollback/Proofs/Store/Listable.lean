import Rollback.Proofs.Recovery.Greatest
import Rollback.Proofs.Service.Steps
import Rollback.Proofs.Store.Catalogue
import Rollback.Snapshot.Cell

/-!
# Stores that can always be listed

A store refuses what is not valid and writes each checkpoint under its own id. So whatever was put
into a new store, deleted and cleared again, all of its headers can be read, they are valid, and no
two share an id (`Listable.serve`). A chronicle accepts them, and a recovery line fails only for lack
of a checkpoint or of consistency, never for what is stored (`line_of_served`).
-/

namespace Rollback

/-- A chronicle has no other reason to give no line. -/
theorem Chronicle.recover_total (c : Chronicle) (failed : List String) (reuse : Bool) :
    (∃ line, c.recover failed reuse = .ok line) ∨
      (∃ name, c.recover failed reuse = .error (.missingCheckpoint name)) ∨
      ∃ name, c.recover failed reuse = .error (.noConsistentLine name) := by
  by_cases missing : ∃ name, c.recover failed reuse = .error (.missingCheckpoint name)
  · exact Or.inr (Or.inl missing)
  · have stored := (stored_iff reuse).mpr (not_exists.mp missing)
    exact (recover_cases stored reuse).imp_right Or.inr

namespace Store

variable {s : Store} {c : Checkpoint} {id : CheckpointId} {found : List Header}

/-- The store has the text of a checkpoint with this id, whose header is valid and can be read. -/
def Proper (s : Store) (id : CheckpointId) : Prop :=
  ∃ c : Checkpoint, c.id = id ∧ s.Stores c ∧ c.header.validate = .ok () ∧
    Instant.inRange c.header.createdAt.date = true

/-- Under each id the store has a checkpoint that belongs there, or nothing. -/
structure Listable (s : Store) : Prop where
  tidy : s.Tidy
  under : ∀ id : CheckpointId, s.Free id ∨ s.Proper id

namespace Proper

theorem put (proper : s.Proper id) (c : Checkpoint) : (s.put c).2.Proper id := by
  obtain ⟨k, same, stores, valid, readable⟩ := proper
  exact ⟨k, same, stores.put c, valid, readable⟩

theorem delete (proper : s.Proper id) {gone : CheckpointId} (other : gone ≠ id) :
    (s.delete gone).2.Proper id := by
  obtain ⟨k, rfl, stores, valid, readable⟩ := proper
  exact ⟨k, rfl, stores.delete other, valid, readable⟩

theorem reopen (proper : s.Proper id) (layout : Layout) : (s.reopen layout).2.Proper id := by
  obtain ⟨k, same, stores, valid, readable⟩ := proper
  exact ⟨k, same, stores.reopen layout, valid, readable⟩

end Proper

namespace Listable

theorem of_new (new : s.New) : s.Listable :=
  ⟨new.keeps.tidy, fun _ => Or.inl (new.keeps.free Std.ExtTreeMap.getElem?_empty)⟩

/-! ## Requests -/

theorem put (listable : s.Listable) (readable : Instant.inRange c.header.createdAt.date = true) :
    (s.put c).2.Listable := by
  refine ⟨listable.tidy.put c, fun id => ?_⟩
  by_cases same : c.id = id
  · subst same
    obtain ⟨result, s', stored⟩ : ∃ result s', s.put c = (result, s') := ⟨_, _, rfl⟩
    cases result with
    | error e =>
      rw [stored, put_error stored]
      exact listable.under c.id
    | ok _ =>
      -- what is not valid would have been refused
      have valid : c.header.validate = .ok () := by
        cases valid : c.header.validate with
        | error e => cases (put_invalid valid).symm.trans stored
        | ok _ => rfl
      rw [stored]
      exact Or.inr ⟨c, rfl, stores_put stored, valid, readable⟩
  · obtain free | proper := listable.under id
    · exact Or.inl (free.put same)
    · exact Or.inr (proper.put c)

theorem delete (listable : s.Listable) (id : CheckpointId) : (s.delete id).2.Listable := by
  refine ⟨listable.tidy.delete id, fun other => ?_⟩
  obtain free | proper := listable.under other
  · exact Or.inl (free.delete id)
  · by_cases same : id = other
    · subst same
      obtain ⟨k, rfl, stores, _⟩ := proper
      exact Or.inl stores.delete_eq.2
    · exact Or.inr (proper.delete same)

theorem clear (listable : s.Listable) : s.clear.2.Listable := by
  have files : ∀ id, s.Free id ∨ ∃ c : Checkpoint, c.id = id ∧ s.Stores c := fun id =>
    (listable.under id).imp_right fun ⟨c, same, stores, _⟩ => ⟨c, same, stores⟩
  obtain ⟨_, tidy, free⟩ := listable.tidy.clear files
  exact ⟨tidy, fun id => Or.inl (free id)⟩

theorem reopen (listable : s.Listable) (layout : Layout) : (s.reopen layout).2.Listable :=
  ⟨listable.tidy.reopen layout, fun id =>
    (listable.under id).imp (·.reopen layout) (·.reopen layout)⟩

theorem answer (listable : s.Listable) {r : Request}
    (readable : ∀ c, r = .put c → Instant.inRange c.header.createdAt.date = true) :
    (s.answer r).2.Listable := by
  cases r with
  | put c => exact listable.put (readable c rfl)
  | delete id => exact listable.delete id
  | clear => exact listable.clear
  | reopen layout => exact listable.reopen layout
  | retrieve _ | get _ | list _ | headers => exact listable

theorem serve (listable : s.Listable) {requests : List Request}
    (readable : ∀ c, .put c ∈ requests → Instant.inRange c.header.createdAt.date = true) :
    (Store.serve Store.answer s requests).2.Listable := by
  induction requests generalizing s with
  | nil => exact listable
  | cons r rest ih =>
    refine ih (listable.answer fun c same => ?_) fun c member => ?_
    · exact readable c (same ▸ List.mem_cons_self)
    · exact readable c (List.mem_cons_of_mem _ member)

/-! ## What is listed -/

/-- What is held under a name is the valid header of a checkpoint that is named by its id. -/
theorem of_holdsAt (listable : s.Listable) {name : String} {h : Header} (holds : s.HoldsAt name h) :
    name = DirectoryStore.fileName h.id ∧ h.validate = .ok () := by
  obtain ⟨id, rfl⟩ : ∃ id, name = DirectoryStore.fileName id := by
    cases s with
    | memory m =>
      obtain ⟨id, _, named, _⟩ := holds
      exact ⟨id, named⟩
    | directory d =>
      obtain ⟨named, _, stands, _⟩ := holds
      exact DirectoryStore.Tidy.named listable.tidy name _ stands named
  obtain free | ⟨c, rfl, ⟨layout, stores⟩, valid, readable⟩ := listable.under id
  · exact absurd (Free.retrieve_eq free) (retrieve_ne_none holds)
  · suffices same : h = c.header by
      subst same
      exact ⟨rfl, valid⟩
    cases s with
    | memory m =>
      obtain ⟨_, _, named, stands⟩ := holds
      obtain rfl := DirectoryStore.fileName_inj named
      cases stands.symm.trans stores
      rfl
    | directory d =>
      obtain ⟨_, _, stands, read⟩ := holds
      cases stands.symm.trans stores
      exact Checkpoint.header_of_render read

theorem keyed (listable : s.Listable) : s.Keyed := fun _ _ holds => (listable.of_holdsAt holds).1

/-- No document stands in the way of listing the others. -/
theorem exists_headers (listable : s.Listable) : ∃ found, s.headers none = .ok found := by
  cases s with
  | memory m => exact ⟨_, MemoryStore.headers_eq m⟩
  | directory d =>
    obtain ⟨entries, present⟩ :=
      Option.isSome_iff_exists.mp (DirectoryStore.Tidy.present listable.tidy)
    have each : ∀ file ∈ DirectoryStore.files entries, ∃ h : Header, ∃ text, file.2 = .file text ∧
        Checkpoint.headerReader.run text = .ok h := by
      rintro ⟨name, entry⟩ member
      obtain ⟨stands, named⟩ := (DirectoryStore.mem_files_of_lookup present).mp member
      obtain ⟨id, rfl⟩ := DirectoryStore.Tidy.named listable.tidy name entry stands named
      obtain free | ⟨c, rfl, ⟨layout, stores⟩, _, readable⟩ := listable.under id
      · cases stands.symm.trans free
      · cases stands.symm.trans stores
        exact ⟨c.header, _, rfl, Checkpoint.headerReader_render readable layout⟩
    obtain ⟨found, read⟩ := Outcome.exists_forall₂ each
    exact ⟨found, DirectoryStore.headers_eq_ok_iff.mpr ⟨entries, present, read⟩⟩

theorem accept_headers (listable : s.Listable) (listed : s.headers none = .ok found) :
    Chronicle.accept [] found = .ok () := by
  refine Chronicle.accept_nil_eq_ok_iff.mpr ⟨fun h member => ?_, listable.keyed.distinct listed⟩
  obtain ⟨name, holds⟩ := (mem_headers listed).mp member
  exact (listable.of_holdsAt holds).2

theorem exists_chronicle (listable : s.Listable) (graph : Graph) : ∃ found chronicle,
    s.headers none = .ok found ∧ Chronicle.ofHeaders found graph = .ok chronicle := by
  obtain ⟨found, listed⟩ := listable.exists_headers
  have accepts := Chronicle.accept_nil_eq_ok_iff.mp (listable.accept_headers listed)
  exact ⟨found, _, listed, Chronicle.ofHeaders_eq_ok_iff.mpr ⟨accepts, rfl⟩⟩

/-- What is listed is what is stored. -/
theorem mem_ids (listable : s.Listable) (listed : s.headers none = .ok found) :
    id ∈ found.map (·.id) ↔ ¬ s.Free id := by
  rw [List.mem_map]
  constructor
  · rintro ⟨h, member, rfl⟩ free
    obtain ⟨name, holds⟩ := (mem_headers listed).mp member
    obtain ⟨rfl, _⟩ := listable.of_holdsAt holds
    exact retrieve_ne_none holds free.retrieve_eq
  · intro taken
    obtain ⟨c, rfl, ⟨layout, stores⟩, _, readable⟩ := (listable.under id).resolve_left taken
    refine ⟨c.header, (mem_headers listed).mpr ⟨DirectoryStore.fileName c.id, ?_⟩, rfl⟩
    cases s with
    | memory m => exact ⟨c.id, _, rfl, stores⟩
    | directory d =>
      exact ⟨DirectoryStore.isFileName_fileName _, _, stores,
        Checkpoint.headerReader_render readable layout⟩

end Listable

/-! ## Recovery lines -/

/-- Whatever was put into a new store, deleted and cleared again, the headers of all that is stored
are listed and make a chronicle. So a service finds a recovery line over them, or reports an instance
without a checkpoint or one that no selection settles, and nothing else. The checkpoints need not be
valid, and nothing but their times has to be readable. -/
theorem line_of_served {ι σ : Type} (new : s.New) {requests : List Request}
    (readable : ∀ c, .put c ∈ requests → ∃ text, Instant.ofString? text = some c.header.createdAt)
    (graph : Graph) : ∃ found chronicle, (serve answer s requests).2.headers none = .ok found ∧
      (∀ id, id ∈ found.map (·.id) ↔ ¬ (serve answer s requests).2.Free id) ∧
      Chronicle.ofHeaders found graph = .ok chronicle ∧
      ∀ (service : Service ι) (w : World ι σ) (failed : List String),
        service.store w = (serve answer s requests).2 →
        service.line w failed graph = chronicle.recover failed ∧
        ((∃ line, service.line w failed graph = .ok line) ∨
          (∃ name, service.line w failed graph = .error (.missingCheckpoint name)) ∨
          ∃ name, service.line w failed graph = .error (.noConsistentLine name)) := by
  have listable : (serve answer s requests).2.Listable := (Listable.of_new new).serve fun c member =>
    (readable c member).elim fun _ read => Instant.inRange_of_ofString? read
  obtain ⟨found, chronicle, listed, accepted⟩ := listable.exists_chronicle graph
  refine ⟨found, chronicle, listed, fun id => listable.mem_ids listed, accepted, ?_⟩
  intro service w failed here
  have answers : service.line w failed graph = chronicle.recover failed := by
    simp only [Service.line, here, listed, accepted, bind, Except.bind]
  rw [answers]
  exact ⟨rfl, chronicle.recover_total failed true⟩

/-- A checkpoint that cannot be read back, put twice into a directory, is in nobody's way. -/
theorem line_of_served_nestedIn :
    ∃ found, (serve answer (directory ⟨"checkpoints", .compact, some ∅⟩)
        [.put (nestedIn 124), .put (nestedIn 124), .delete .nil]).2.headers none = .ok found ∧
      ∀ (w : World Empty Cell), w.stores 0 = (serve answer
        (directory ⟨"checkpoints", .compact, some ∅⟩)
        [.put (nestedIn 124), .put (nestedIn 124), .delete .nil]).2 →
        (∃ line, (Service.new "sink" 0 0 : Service Empty).line w ["sink"] .empty = .ok line) ∨
        (∃ name, (Service.new "sink" 0 0 : Service Empty).line w ["sink"] .empty =
          .error (.missingCheckpoint name)) ∨
        ∃ name, (Service.new "sink" 0 0 : Service Empty).line w ["sink"] .empty =
          .error (.noConsistentLine name) := by
  have new : New (directory ⟨"checkpoints", .compact, some ∅⟩) := .directory (by simp) (by simp)
  have read : Instant.ofString? "1970-01-01T00:00:00.000001Z" =
      some (nestedIn 124).header.createdAt := by decide +kernel
  have readable : ∀ c, .put c ∈ [Request.put (nestedIn 124), .put (nestedIn 124), .delete .nil] →
      ∃ text, Instant.ofString? text = some c.header.createdAt := by
    simpa using ⟨_, read⟩
  obtain ⟨found, _, listed, _, _, answers⟩ := line_of_served (ι := Empty) (σ := Cell) new readable
    .empty
  exact ⟨found, listed, fun w here => (answers (.new "sink" 0 0) w ["sink"] here).2⟩

end Store

end Rollback
