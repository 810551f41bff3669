import Rollback.Proofs.Store.Tidiness

/-!
# Stores as maps

A catalogue is a map from ids to checkpoints in which an id is written once. A store in memory and
one in a directory, new ones, both answer any requests as an empty catalogue does
(`serve_new`), if each checkpoint that is put is one that is read back from its text. So they
cannot be told apart, and what is stored is returned as it was until it is deleted.
-/

namespace Rollback

/-- A map from ids to checkpoints. -/
abbrev Catalogue := Std.ExtTreeMap CheckpointId Checkpoint

namespace Catalogue

/-- Adds a checkpoint with a valid header under an id that is not taken. -/
def put (m : Catalogue) (c : Checkpoint) : Outcome Unit × Catalogue :=
  match c.header.validate with
  | .error e => (.error e, m)
  | .ok () =>
    if c.id ∈ m then (.error (.alreadyStored c.id), m) else (.ok (), m.insert c.id c)

def get (m : Catalogue) (id : CheckpointId) : Outcome Checkpoint :=
  match m[id]? with
  | some c => .ok c
  | none => .error (.notFound id)

def headers (m : Catalogue) : List Header := m.toList.map fun e => e.2.header

/-- The headers of one owner's checkpoints or of all. -/
def headersOf (m : Catalogue) (owner : Option String) : List Header :=
  m.headers.filter fun h => owner.all (· = h.owner)

def answer (m : Catalogue) : Store.Request → Store.Reply × Catalogue
  | .put c => (.done (m.put c).1, (m.put c).2)
  | .retrieve id => (.retrieved (.ok m[id]?), m)
  | .get id => (.got (m.get id), m)
  | .delete id => (.deleted (.ok (m.contains id)), m.erase id)
  | .list owner => (.listed (.ok (.ofList ((m.headersOf owner).map .ok))), m)
  | .headers => (.headers (.ok (.ofList m.headers)), m)
  | .clear => (.done (.ok ()), ∅)
  | .reopen _ => (.done (.ok ()), m)

end Catalogue

namespace Store

variable {s : Store} {c : Checkpoint} {id : CheckpointId}

/-- If each header can be read, nothing else is listed. -/
theorem listAll_of_headers {found : List Header} (listed : s.headers none = .ok found) :
    s.listAll = .ok (found.map .ok) := by
  rw [headers_none] at listed
  cases all : s.listAll with
  | error e =>
    rw [all] at listed
    cases listed
  | ok results =>
    rw [all] at listed
    have each := Outcome.mapM_eq_ok_iff.mp (listed : results.mapM id = .ok found)
    congr 1
    rwa [← List.forall₂_eq_eq_eq, List.forall₂_map_right_iff]

/-! ## What a store and a catalogue have in common -/

/-- Under the id the store has this checkpoint and can read it back, or nothing. -/
def Under (s : Store) (id : CheckpointId) : Option Checkpoint → Prop
  | none => s.Free id
  | some c => c.id = id ∧ s.Stores c ∧ c.ReadBack

namespace Under

variable {found : Option Checkpoint}

theorem retrieve_eq (under : s.Under id found) : s.retrieve id = .ok found := by
  cases found with
  | none => exact Free.retrieve_eq under
  | some c =>
    obtain ⟨rfl, stores, read⟩ := under
    exact stores.retrieve_readBack read

theorem delete_eq (under : s.Under id found) :
    (s.delete id).1 = .ok found.isSome ∧ (s.delete id).2.Free id := by
  cases found with
  | none => exact ⟨Free.delete_eq under, Free.delete under id⟩
  | some c =>
    obtain ⟨rfl, stores, _⟩ := under
    exact stores.delete_eq

theorem put (under : s.Under id found) (other : c.id ≠ id) : (s.put c).2.Under id found := by
  cases found with
  | none => exact Free.put under other
  | some k => exact ⟨under.1, under.2.1.put c, under.2.2⟩

theorem delete (under : s.Under id found) {gone : CheckpointId} (other : gone ≠ id) :
    (s.delete gone).2.Under id found := by
  cases found with
  | none => exact Free.delete under gone
  | some c =>
    obtain ⟨rfl, stores, read⟩ := under
    exact ⟨rfl, stores.delete other, read⟩

theorem reopen (under : s.Under id found) (layout : Layout) :
    (s.reopen layout).2.Under id found := by
  cases found with
  | none => exact Free.reopen under layout
  | some c => exact ⟨under.1, under.2.1.reopen layout, under.2.2⟩

end Under

/-- A store keeps what is in the catalogue and nothing else. -/
structure Keeps (s : Store) (m : Catalogue) : Prop where
  tidy : s.Tidy
  under : ∀ id : CheckpointId, s.Under id m[id]?

namespace Keeps

variable {m : Catalogue}

theorem free (keeps : s.Keeps m) (held : m[id]? = none) : s.Free id := by
  have under := keeps.under id
  rwa [held] at under

theorem stored (keeps : s.Keeps m) (held : m[id]? = some c) :
    c.id = id ∧ s.Stores c ∧ c.ReadBack := by
  have under := keeps.under id
  rwa [held] at under

theorem of_free (tidy : s.Tidy) (free : ∀ id, s.Free id) : s.Keeps ∅ := by
  refine ⟨tidy, fun id => ?_⟩
  rw [Std.ExtTreeMap.getElem?_empty]
  exact free id

theorem get_eq (keeps : s.Keeps m) (id : CheckpointId) : s.get id = m.get id := by
  rw [Store.get, (keeps.under id).retrieve_eq, Catalogue.get]
  cases m[id]? <;> rfl

theorem put (keeps : s.Keeps m) (read : c.ReadBack) :
    (s.put c).1 = (m.put c).1 ∧ (s.put c).2.Keeps (m.put c).2 := by
  cases valid : c.header.validate with
  | error e =>
    rw [put_invalid valid, Catalogue.put, valid]
    exact ⟨rfl, keeps⟩
  | ok _ =>
    cases held : m[c.id]? with
    | some k =>
      have taken : c.id ∈ m := by
        rw [Std.ExtTreeMap.mem_iff_isSome_getElem?, held]
        rfl
      obtain ⟨same, stores, _⟩ := keeps.stored held
      simp only [stores.put_eq same.symm valid, Catalogue.put, valid, if_pos taken]
      exact ⟨trivial, keeps⟩
    | none =>
      have absent : c.id ∉ m := by
        rw [Std.ExtTreeMap.mem_iff_isSome_getElem?, held]
        simp
      have done := (keeps.free held).put_eq keeps.tidy valid
      simp only [Catalogue.put, valid, if_neg absent]
      refine ⟨done, keeps.tidy.put c, fun id => ?_⟩
      rw [Std.ExtTreeMap.getElem?_insert]
      split
      · rename_i same
        rw [Std.LawfulEqCmp.compare_eq_iff_eq] at same
        exact ⟨same, stores_put (Prod.ext done rfl), read⟩
      · rename_i other
        rw [Std.LawfulEqCmp.compare_eq_iff_eq] at other
        exact (keeps.under id).put other

theorem delete (keeps : s.Keeps m) (id : CheckpointId) :
    (s.delete id).1 = .ok (m.contains id) ∧ (s.delete id).2.Keeps (m.erase id) := by
  obtain ⟨done, free⟩ := (keeps.under id).delete_eq
  rw [Std.ExtTreeMap.contains_eq_isSome_getElem?]
  refine ⟨done, keeps.tidy.delete id, fun k => ?_⟩
  rw [Std.ExtTreeMap.getElem?_erase]
  split
  · rename_i same
    rw [Std.LawfulEqCmp.compare_eq_iff_eq] at same
    exact same ▸ free
  · rename_i other
    rw [Std.LawfulEqCmp.compare_eq_iff_eq] at other
    exact (keeps.under k).delete other

theorem clear (keeps : s.Keeps m) : s.clear.1 = .ok () ∧ s.clear.2.Keeps ∅ := by
  have files : ∀ id, s.Free id ∨ ∃ c, c.id = id ∧ s.Stores c := by
    intro id
    cases held : m[id]? with
    | none => exact Or.inl (keeps.free held)
    | some c =>
      obtain ⟨same, stores, _⟩ := keeps.stored held
      exact Or.inr ⟨c, same, stores⟩
  obtain ⟨done, tidy, free⟩ := keeps.tidy.clear files
  exact ⟨done, .of_free tidy free⟩

theorem reopen (keeps : s.Keeps m) (layout : Layout) :
    (s.reopen layout).1 = .ok () ∧ (s.reopen layout).2.Keeps m := by
  refine ⟨?_, keeps.tidy.reopen layout, fun id => (keeps.under id).reopen layout⟩
  cases s <;> rfl

/-- The headers that can be read from a store are those of the catalogue. -/
theorem holdsAt_iff (keeps : s.Keeps m) {name : String} {h : Header} : s.HoldsAt name h ↔
    ∃ (id : CheckpointId) (c : Checkpoint), m[id]? = some c ∧
      name = DirectoryStore.fileName id ∧ h = c.header := by
  constructor
  · intro holds
    -- a directory may hold other documents than the catalogue only under names of no id
    obtain ⟨id, named⟩ : ∃ id, name = DirectoryStore.fileName id := by
      cases s with
      | memory m =>
        obtain ⟨id, _, named, _⟩ := holds
        exact ⟨id, named⟩
      | directory d =>
        obtain ⟨named, _, stands, _⟩ := holds
        exact DirectoryStore.Tidy.named keeps.tidy name _ stands named
    subst named
    cases held : m[id]? with
    | none => exact absurd (keeps.free held).retrieve_eq (retrieve_ne_none holds)
    | some c =>
      refine ⟨id, c, held, rfl, ?_⟩
      obtain ⟨rfl, ⟨layout, stores⟩, _⟩ := keeps.stored held
      cases s with
      | memory m =>
        obtain ⟨id, text, named, stands⟩ := holds
        obtain rfl := DirectoryStore.fileName_inj named
        cases stands.symm.trans stores
        rfl
      | directory d =>
        obtain ⟨_, text, stands, read⟩ := holds
        cases stands.symm.trans stores
        exact Checkpoint.header_of_render read
  · rintro ⟨id, c, held, rfl, rfl⟩
    obtain ⟨rfl, ⟨layout, stores⟩, read⟩ := keeps.stored held
    have read := read layout
    cases s with
    | memory m => exact ⟨c.id, _, rfl, stores⟩
    | directory d =>
      exact ⟨DirectoryStore.isFileName_fileName _, _, stores,
        Checkpoint.headerReader_render (Checkpoint.readable_of_reader_render read) layout⟩

theorem keyed (keeps : s.Keeps m) : s.Keyed := by
  intro name h holds
  obtain ⟨id, c, held, rfl, rfl⟩ := keeps.holdsAt_iff.mp holds
  rw [← (keeps.stored held).1]
  rfl

/-- Each header can be read, so all of them are listed. -/
theorem exists_headers (keeps : s.Keeps m) : ∃ found, s.headers none = .ok found := by
  cases s with
  | memory m => exact ⟨_, MemoryStore.headers_eq m⟩
  | directory d =>
    obtain ⟨entries, present⟩ := Option.isSome_iff_exists.mp (DirectoryStore.Tidy.present keeps.tidy)
    have each : ∀ file ∈ DirectoryStore.files entries, ∃ h : Header, ∃ text, file.2 = .file text ∧
        Checkpoint.headerReader.run text = .ok h := by
      rintro ⟨name, entry⟩ member
      obtain ⟨stands, named⟩ := (DirectoryStore.mem_files_of_lookup present).mp member
      obtain ⟨id, rfl⟩ := DirectoryStore.Tidy.named keeps.tidy name entry stands named
      cases held : m[id]? with
      | none => cases stands.symm.trans (keeps.free held)
      | some c =>
        obtain ⟨_, text, stands', read⟩ := keeps.holdsAt_iff.mpr ⟨id, c, held, rfl, rfl⟩
        cases stands.symm.trans stands'
        exact ⟨c.header, text, rfl, read⟩
    obtain ⟨found, read⟩ := Outcome.exists_forall₂ each
    exact ⟨found, DirectoryStore.headers_eq_ok_iff.mpr ⟨entries, present, read⟩⟩

theorem headers_perm (keeps : s.Keeps m) {found : List Header}
    (listed : s.headers none = .ok found) : found.Perm m.headers := by
  have ids : m.headers.map (·.id) = m.keys := by
    rw [Catalogue.headers, List.map_map, ← Std.ExtTreeMap.map_fst_toList_eq_keys]
    apply List.map_congr_left
    rintro ⟨id, c⟩ member
    exact (keeps.stored (Std.ExtTreeMap.mem_toList_iff_getElem?_eq_some.mp member)).1
  have distinct : (m.headers.map (·.id)).Nodup := ids ▸ Std.ExtTreeMap.nodup_keys
  rw [List.perm_ext_iff_of_nodup (keeps.keyed.distinct listed).of_map distinct.of_map]
  intro h
  rw [mem_headers listed, Holds, Catalogue.headers, List.mem_map]
  constructor
  · rintro ⟨name, holds⟩
    obtain ⟨id, c, held, -, rfl⟩ := keeps.holdsAt_iff.mp holds
    exact ⟨(id, c), Std.ExtTreeMap.mem_toList_iff_getElem?_eq_some.mpr held, rfl⟩
  · rintro ⟨⟨id, c⟩, member, rfl⟩
    exact ⟨_, keeps.holdsAt_iff.mpr
      ⟨id, c, Std.ExtTreeMap.mem_toList_iff_getElem?_eq_some.mp member, rfl, rfl⟩⟩

theorem headers_eq (keeps : s.Keeps m) :
    (s.headers none).map .ofList = (.ok (.ofList m.headers) : Outcome (Multiset Header)) := by
  obtain ⟨found, listed⟩ := keeps.exists_headers
  rw [listed, Except.map, Multiset.coe_eq_coe.mpr (keeps.headers_perm listed)]

theorem list_eq (keeps : s.Keeps m) (owner : Option String) : (s.list owner).map .ofList =
    (.ok (.ofList ((m.headersOf owner).map .ok)) : Outcome (Multiset (Outcome Header))) := by
  obtain ⟨found, listed⟩ := keeps.exists_headers
  have all := listAll_of_headers listed
  have own : (found.map Except.ok).filter (isOf owner) =
      ((found.filter fun h => owner.all (· = h.owner)).map Except.ok : List (Outcome Header)) := by
    rw [List.filter_map]
    rfl
  rw [list, all, Except.map, Except.map, own]
  exact congrArg _ (Multiset.coe_eq_coe.mpr (((keeps.headers_perm listed).filter _).map _))

/-! ## Requests -/

theorem answer (keeps : s.Keeps m) (r : Request) (read : ∀ c, r = .put c → c.ReadBack) :
    (s.answer r).1 = (m.answer r).1 ∧ (s.answer r).2.Keeps (m.answer r).2 := by
  cases r with
  | put c =>
    obtain ⟨same, keeps⟩ := keeps.put (read c rfl)
    exact ⟨congrArg Reply.done same, keeps⟩
  | retrieve id => exact ⟨congrArg Reply.retrieved (keeps.under id).retrieve_eq, keeps⟩
  | get id => exact ⟨congrArg Reply.got (keeps.get_eq id), keeps⟩
  | delete id =>
    obtain ⟨same, keeps⟩ := keeps.delete id
    exact ⟨congrArg Reply.deleted same, keeps⟩
  | list owner => exact ⟨congrArg Reply.listed (keeps.list_eq owner), keeps⟩
  | headers => exact ⟨congrArg Reply.headers keeps.headers_eq, keeps⟩
  | clear =>
    obtain ⟨same, keeps⟩ := keeps.clear
    exact ⟨congrArg Reply.done same, keeps⟩
  | reopen layout =>
    obtain ⟨same, keeps⟩ := keeps.reopen layout
    exact ⟨congrArg Reply.done same, keeps⟩

theorem serve (keeps : s.Keeps m) {requests : List Request}
    (read : ∀ c, .put c ∈ requests → c.ReadBack) :
    (Store.serve Store.answer s requests).1 = (Store.serve Catalogue.answer m requests).1 ∧
      (Store.serve Store.answer s requests).2.Keeps (Store.serve Catalogue.answer m requests).2 := by
  induction requests generalizing s m with
  | nil => exact ⟨rfl, keeps⟩
  | cons r rest ih =>
    obtain ⟨reply, keeps⟩ := keeps.answer r fun c same => read c (same ▸ List.mem_cons_self)
    obtain ⟨replies, keeps⟩ := ih keeps fun c member => read c (List.mem_cons_of_mem _ member)
    exact ⟨congrArg₂ List.cons reply replies, keeps⟩

end Keeps

/-- There is nothing in memory, or there are no checkpoints in a directory into which nobody else
writes. -/
inductive New : Store → Prop where
  | memory (layout : Layout) : New (memory (.empty layout))
  | directory {path : String} {layout : Layout} {entries : NameMap DirectoryEntry}
      (unnamed : ∀ name ∈ entries, DirectoryStore.isFileName name = false)
      (unobstructed : ∀ id, entries[DirectoryStore.unfinishedName id]? ≠ some .directory) :
      New (directory ⟨path, layout, some entries⟩)

theorem New.keeps (new : s.New) : s.Keeps ∅ := by
  cases new with
  | memory layout => exact .of_free trivial fun id => by simp [Free, MemoryStore.empty]
  | @directory path layout entries unnamed unobstructed =>
    have other : ∀ name, DirectoryStore.isFileName name = true → entries[name]? = none := by
      intro name named
      apply getElem?_neg
      intro present
      rw [unnamed name present] at named
      contradiction
    refine .of_free ⟨rfl, fun name entry stands named => ?_, unobstructed⟩ fun id => ?_
    · cases stands.symm.trans (other name named)
    · exact other _ (DirectoryStore.isFileName_fileName id)

/-- Two new stores, in memory or in a directory, answer any requests alike and as a catalogue does, if
each checkpoint that is put is one that is read back from its text. A checkpoint that is refused
changes nothing, and one that is stored is returned as it was until it is removed. -/
theorem serve_new {t : Store} (new : s.New) (new' : t.New) {requests : List Request}
    (read : ∀ c, .put c ∈ requests → c.ReadBack) :
    (serve answer s requests).1 = (serve answer t requests).1 ∧
    (serve answer s requests).1 = (serve Catalogue.answer ∅ requests).1 ∧
    ∀ front c back, requests = front ++ .put c :: back →
      (∀ e, ((serve answer s front).2.put c).1 = .error e →
        ((serve answer s front).2.put c).2 = (serve answer s front).2) ∧
      (((serve answer s front).2.put c).1 = .ok () → (∀ r ∈ back, ¬ r.Removes c.id) →
        (serve answer s requests).2.retrieve c.id = .ok (some c)) := by
  have here := (new.keeps.serve read).1
  have there := (new'.keeps.serve read).1
  refine ⟨here.trans there.symm, here, ?_⟩
  rintro front c back rfl
  refine ⟨fun e refused => put_error (Prod.ext refused rfl), fun stored kept => ?_⟩
  have stores : ((serve answer s front).2.put c).2.Stores c := stores_put (Prod.ext stored rfl)
  rw [serve_append]
  exact (stores.serve kept).retrieve_readBack (read c (by simp))

/-- A checkpoint is put twice, and it is found again after its directory was opened anew. -/
theorem serve_new_nestedIn :
    (serve answer (memory (.empty .compact))
        [.put (nestedIn 1), .put (nestedIn 1), .reopen .compact]).1 =
      (serve answer (directory ⟨"checkpoints", .indented, some ∅⟩)
        [.put (nestedIn 1), .put (nestedIn 1), .reopen .compact]).1 ∧
    (serve answer (directory ⟨"checkpoints", .indented, some ∅⟩)
        [.put (nestedIn 1), .put (nestedIn 1), .reopen .compact]).2.retrieve (nestedIn 1).id =
      .ok (some (nestedIn 1)) := by
  have memory : New (memory (.empty .compact)) := .memory .compact
  have directory : New (directory ⟨"checkpoints", .indented, some ∅⟩) :=
    .directory (by simp) (by simp)
  have read : (nestedIn 1).ReadBack :=
    Checkpoint.readBack_of_legible (by decide +kernel) (by decide +kernel) (by decide +kernel)
  have valid : firstOfSink.validate = .ok () := by decide +kernel
  have free : Free (.directory ⟨"checkpoints", .indented, some ∅⟩) (nestedIn 1).id :=
    directory.keeps.free Std.ExtTreeMap.getElem?_empty
  have stored := free.put_eq directory.keeps.tidy valid
  have all : ∀ c, .put c ∈ [Request.put (nestedIn 1), .put (nestedIn 1), .reopen .compact] →
      c.ReadBack := by simp [read]
  obtain ⟨same, -, kept⟩ := serve_new directory memory all
  exact ⟨same.symm, (kept [] (nestedIn 1) _ rfl).2 stored (by simp [Request.Removes])⟩

end Store

end Rollback
