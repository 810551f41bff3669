import Rollback.Proofs.Service.Collecting
import Rollback.Proofs.Store.Listable

/-!
# Garbage is what a line supersedes

A chronicle tells by the places in its histories which checkpoints a line supersedes; a service tells
by age, from a listing in any order, which of its own are garbage. In a history no two checkpoints
are of the same age, so these are the same (`superseded_perm_garbage`). Whatever was put into a store
and deleted again, collecting garbage deletes exactly them (`collect_superseded`).
-/

namespace Rollback

/-- An instance that a line does not name with the nil id goes back to what the line names. -/
theorem Line.checkpointFor_eq {line : Line} {name : String}
    (real : line.selections[name]? ≠ some .nil) :
    line.checkpointFor name = line.selections[name]? := by
  rw [checkpointFor]
  cases selects : line.selections[name]? with
  | none => rfl
  | some id =>
    rw [selects] at real
    have real : id ≠ .nil := fun same => real (congrArg some same)
    simp [real]

namespace Chronicle

variable {headers : List Header} {graph : Graph} {c : Chronicle} {line : Line} {name : String}
  {h : Header}

section Accepted

variable (accepted : ofHeaders headers graph = .ok c)

include accepted

/-- What is in front of a selected checkpoint in its history. -/
theorem mem_superseded_iff : h ∈ c.superseded line ↔
    ∃ id position, line.selections[h.owner]? = some id ∧
      (c.history h.owner).findIdx? (·.id = id) = some position ∧
      h ∈ (c.history h.owner).take position := by
  simp only [superseded, List.mem_flatMap, Prod.exists,
    Std.ExtTreeMap.mem_toList_iff_getElem?_eq_some]
  constructor
  · rintro ⟨name, id, selects, old⟩
    cases place : (c.history name).findIdx? (·.id = id) with
    | none => simp [place] at old
    | some position =>
      simp only [place] at old
      obtain ⟨_, rfl⟩ := (mem_history accepted).mp (List.mem_of_mem_take old)
      exact ⟨id, position, selects, place, old⟩
  · rintro ⟨id, position, selects, place, old⟩
    exact ⟨h.owner, id, selects, by simpa only [place] using old⟩

theorem superseded_nodup : (c.superseded line).Nodup := by
  have distinct : ∀ name, (c.history name).Nodup := fun name =>
    (history_distinct accepted name).of_map
  rw [superseded, List.nodup_flatMap]
  constructor
  · rintro ⟨name, id⟩ _
    dsimp only
    split
    · exact (distinct name).sublist (List.take_sublist _ _)
    · exact List.nodup_nil
  · refine Std.ExtTreeMap.distinct_keys_toList.imp ?_
    rintro ⟨name, id⟩ ⟨name', id'⟩ different h old old'
    -- nobody owns a checkpoint in two histories
    have owned : ∀ {name : String} {position : Nat}, h ∈ (c.history name).take position →
        h.owner = name :=
      fun member => ((mem_history accepted).mp (List.mem_of_mem_take member)).2
    dsimp only at old old'
    split at old
    · split at old'
      · have same : name = name' := (owned old).symm.trans (owned old')
        exact different (Std.LawfulEqCmp.compare_eq_iff_eq.mpr same)
      · cases old'
    · cases old

/-- The superseded checkpoints of an instance are those that are older than its selection. -/
theorem mem_superseded_iff_outdates (real : line.selections[h.owner]? ≠ some .nil) :
    h ∈ c.superseded line ↔ h ∈ headers ∧ line.outdates headers h = true := by
  rw [mem_superseded_iff accepted, ← Line.checkpointFor_eq real]
  constructor
  · rintro ⟨id, position, chosen, place, old⟩
    obtain ⟨i, before, stands⟩ := List.mem_take_iff_getElem.mp old
    have stands := List.getElem?_eq_some_iff.mpr ⟨_, stands⟩
    have below : c.below line h.owner = position := by
      simp only [below, chosen, place, Option.getD_some]
    refine ⟨((mem_history accepted).mp (List.mem_of_mem_take old)).1, ?_⟩
    rw [outdates_iff_lt accepted stands, below]
    omega
  · rintro ⟨known, outdated⟩
    obtain ⟨i, stands⟩ := List.mem_iff_getElem?.mp ((mem_history accepted).mpr ⟨known, rfl⟩)
    have before := (outdates_iff_lt accepted stands).mp outdated
    obtain ⟨kept, chosen, above⟩ := exists_of_pos_below accepted (Nat.zero_lt_of_lt before)
    refine ⟨kept.id, c.below line h.owner, chosen,
      (findIdx?_id_eq_some_iff (history_distinct accepted h.owner)).mpr ⟨kept, above, rfl⟩, ?_⟩
    obtain ⟨inside, same⟩ := List.getElem?_eq_some_iff.mp stands
    exact List.mem_take_iff_getElem.mpr ⟨i, by omega, same⟩

end Accepted

end Chronicle

/-! ## Collecting -/

namespace Store.Sheds

variable {before after : Store} {found : List Header} {gone gone' : List CheckpointId}

/-- The order in which checkpoints went makes no difference. -/
theorem congr (sheds : before.Sheds after found gone) (same : ∀ id, id ∈ gone ↔ id ∈ gone') :
    before.Sheds after found gone' := by
  obtain ⟨left, listed, perm⟩ := sheds.listed
  refine ⟨sheds.keyed, ⟨left, listed, ?_⟩, ?_, ?_⟩
  · simpa only [same] using perm
  · intro id kept
    exact sheds.retrieves id (mt (same id).mp kept)
  · intro id lost
    exact sheds.lost id ((same id).mpr lost)

end Store.Sheds

namespace Service

variable {ι σ : Type} {s : Service ι} {found : List Header} {graph : Graph} {c : Chronicle}
  {line : Line}

/-- The own checkpoints that a line supersedes. -/
def superseded (s : Service ι) (c : Chronicle) (line : Line) : List CheckpointId :=
  ((c.superseded line).filter (·.owner = s.name)).map (·.id)

theorem forget_congr {gone gone' : List CheckpointId} (same : ∀ id, id ∈ gone ↔ id ∈ gone') :
    s.forget gone = s.forget gone' := by
  simp only [forget, same]

theorem superseded_perm_garbage (accepted : Chronicle.ofHeaders found graph = .ok c)
    (real : line.selections[s.name]? ≠ some .nil) :
    ((c.superseded line).filter (·.owner = s.name)).Perm (s.garbage found line) := by
  have distinct : (s.garbage found line).Nodup :=
    ((Chronicle.distinct_of_accepted accepted).filter _).of_map
  rw [List.perm_ext_iff_of_nodup ((Chronicle.superseded_nodup accepted).filter _) distinct]
  intro h
  rw [List.mem_filter, mem_garbage, decide_eq_true_eq]
  by_cases own : h.owner = s.name
  · rw [Chronicle.mem_superseded_iff_outdates accepted (own ▸ real)]
    simp [own]
  · simp [own]

theorem mem_superseded_iff (accepted : Chronicle.ofHeaders found graph = .ok c)
    (real : line.selections[s.name]? ≠ some .nil) {id : CheckpointId} :
    id ∈ s.superseded c line ↔ ∃ h ∈ found, h.id = id ∧ h.owner = s.name ∧
      ∃ kept ∈ found, kept.owner = s.name ∧ line.selections[s.name]? = some kept.id ∧
        h.isOlder kept = true := by
  rw [superseded, ((superseded_perm_garbage accepted real).map _).mem_iff, List.mem_map,
    ← Line.checkpointFor_eq real]
  constructor
  · rintro ⟨h, outdated, rfl⟩
    obtain ⟨known, own, outdated⟩ := mem_garbage.mp outdated
    rw [Line.outdates_eq_true_iff, own] at outdated
    exact ⟨h, known, rfl, own, outdated⟩
  · rintro ⟨h, known, rfl, own, outdated⟩
    rw [← own] at outdated
    exact ⟨h, mem_garbage.mpr ⟨known, own, Line.outdates_eq_true_iff.mpr outdated⟩, rfl⟩

theorem superseded_subset (accepted : Chronicle.ofHeaders found graph = .ok c)
    (real : line.selections[s.name]? ≠ some .nil) :
    s.superseded c line ⊆ found.map (·.id) := by
  intro id old
  obtain ⟨h, known, named, _⟩ := (mem_superseded_iff accepted real).mp old
  exact List.mem_map.mpr ⟨h, known, named⟩

theorem superseded_nodup (accepted : Chronicle.ofHeaders found graph = .ok c)
    (real : line.selections[s.name]? ≠ some .nil) : (s.superseded c line).Nodup := by
  rw [superseded, ((superseded_perm_garbage accepted real).map _).nodup_iff]
  exact (Chronicle.distinct_of_accepted accepted).filter _

/-- Whatever was put into a new store, deleted and cleared again: unless a line names a service's
instance with the nil id, the service deletes exactly those of its checkpoints that the line
supersedes in the chronicle of all that is stored, whatever the graph. It counts them, forgets them
and leaves all others as they are: those of other instances, the one that the line names, and what is
not older than that; and all of its own, if the line names none of them. -/
theorem collect_superseded {store : Store} (new : store.New) {requests : List Store.Request}
    (readable : ∀ c, .put c ∈ requests → ∃ text, Instant.ofString? text = some c.header.createdAt)
    (graph : Graph) : ∃ found chronicle,
      (Store.serve Store.answer store requests).2.headers none = .ok found ∧
      Chronicle.ofHeaders found graph = .ok chronicle ∧
      ∀ (s : Service ι) (w : World ι σ) (line : Line),
        s.store w = (Store.serve Store.answer store requests).2 →
        line.selections[s.name]? ≠ some .nil →
        (∃ after, s.collect w line = (.ok (s.superseded chronicle line).length,
            s.forget (s.superseded chronicle line), w.setStore s.storage after) ∧
          (s.store w).Sheds after found (s.superseded chronicle line)) ∧
        (s.superseded chronicle line).Nodup ∧
        s.superseded chronicle line ⊆ found.map (·.id) ∧
        ∀ h ∈ found, h.id ∈ s.superseded chronicle line ↔ h.owner = s.name ∧
          ∃ kept ∈ found, kept.owner = s.name ∧ line.selections[s.name]? = some kept.id ∧
            h.isOlder kept = true := by
  have listable : (Store.serve Store.answer store requests).2.Listable :=
    (Store.Listable.of_new new).serve fun c member =>
      (readable c member).elim fun _ read => Instant.inRange_of_ofString? read
  obtain ⟨found, chronicle, listed, accepted⟩ := listable.exists_chronicle graph
  refine ⟨found, chronicle, listed, accepted, ?_⟩
  intro s w line here real
  obtain ⟨after, collects, sheds⟩ := collect_eq (here ▸ listable.keyed) (here ▸ listed) line
  have perm := (superseded_perm_garbage accepted real).map (·.id)
  have same : ∀ id, id ∈ (s.garbage found line).map (·.id) ↔ id ∈ s.superseded chronicle line :=
    fun id => perm.symm.mem_iff
  refine ⟨⟨after, ?_, sheds.congr same⟩, superseded_nodup accepted real,
    superseded_subset accepted real, fun h known => ?_⟩
  · rw [collects, forget_congr same, superseded, perm.length_eq, List.length_map]
  · rw [mem_superseded_iff accepted real]
    constructor
    · rintro ⟨k, known', named, older⟩
      rwa [(Chronicle.distinct_of_accepted accepted).eq_of_id known' known named] at older
    · exact fun older => ⟨h, known, rfl, older⟩

/-! ## Checkpoints of the same time -/

/-- Three checkpoints of a sink and one of a source. All but the first were created at the same time,
and the first one later. -/
def simultaneous : List Header := [
  ⟨.ofDigit 1, "sink", Instant.epoch.tick.tick, (∅ : Dependencies).insert "sink" (.ofDigit 3)⟩,
  ⟨.ofDigit 2, "sink", Instant.epoch.tick, (∅ : Dependencies).insert "sink" .nil⟩,
  ⟨.ofDigit 3, "sink", Instant.epoch.tick, (∅ : Dependencies).insert "sink" (.ofDigit 2)⟩,
  ⟨.ofDigit 4, "source", Instant.epoch.tick, (∅ : Dependencies).insert "source" .nil⟩]

def simultaneousRequests : List Store.Request := simultaneous.map fun h => .put ⟨h, ∅⟩

def simultaneousWorld : World Empty Cell where
  objects := nofun
  stores _ := (Store.serve Store.answer (.memory (.empty .compact)) simultaneousRequests).2
  gates _ := .free

/-- A service of the sink that remembers these checkpoints. -/
def sinkWith (history : List CheckpointId) : Service Empty := { new "sink" 0 0 with history }

theorem readable_simultaneous {c : Checkpoint} (stored : .put c ∈ simultaneousRequests) :
    ∃ text, Instant.ofString? text = some c.header.createdAt := by
  obtain ⟨h, member, same⟩ := List.mem_map.mp stored
  cases same
  have times : ∀ h ∈ simultaneous,
      h.createdAt = Instant.epoch.tick ∨ h.createdAt = Instant.epoch.tick.tick := by decide +kernel
  obtain first | later := times h member
  · exact ⟨"1970-01-01T00:00:00.000001Z", by rw [first]; decide +kernel⟩
  · exact ⟨"1970-01-01T00:00:00.000002Z", by rw [later]; decide +kernel⟩

/-- For the sink the line names its second checkpoint in the order of age, and for the source one of
the sink's. Only the oldest checkpoint of the sink goes. -/
theorem collect_superseded_simultaneous : ∃ w after,
    (sinkWith [.ofDigit 2, .ofDigit 3, .ofDigit 1]).collect simultaneousWorld
      (Chronicle.lineOf (.ofDigit 2) (.ofDigit 3)) =
        (.ok 1, sinkWith [.ofDigit 3, .ofDigit 1], w) ∧
    w = simultaneousWorld.setStore 0 after ∧ after.retrieve (.ofDigit 2) = .ok none ∧
    (∀ id, id ≠ .ofDigit 2 → after.retrieve id = (simultaneousWorld.stores 0).retrieve id) ∧
    ∃ w', (new "source" 0 0 : Service Empty).collect simultaneousWorld
      (Chronicle.lineOf (.ofDigit 2) (.ofDigit 3)) = (.ok 0, new "source" 0 0, w') := by
  obtain ⟨found, chronicle, listed, accepted, collects⟩ :=
    collect_superseded (ι := Empty) (σ := Cell) (.memory .compact)
      (fun _ => readable_simultaneous) .empty
  have all : (simultaneousWorld.stores 0).headers none = .ok simultaneous := by decide +kernel
  cases Except.ok.inj (listed.symm.trans all)
  have inAge : (simultaneous.rotate 1).Pairwise fun a b => a.isOlder b = true := by decide +kernel
  cases Except.ok.inj (accepted.symm.trans
    (Chronicle.ofHeaders_eq_inOrder (by decide +kernel) (by decide +kernel) inAge))
  obtain ⟨⟨after, gone, sheds⟩, -⟩ := collects (sinkWith [.ofDigit 2, .ofDigit 3, .ofDigit 1])
    simultaneousWorld (Chronicle.lineOf (.ofDigit 2) (.ofDigit 3)) rfl (by decide +kernel)
  obtain ⟨⟨_, none, -⟩, -⟩ := collects (.new "source" 0 0) simultaneousWorld
    (Chronicle.lineOf (.ofDigit 2) (.ofDigit 3)) rfl (by decide +kernel)
  have old : (sinkWith [.ofDigit 2, .ofDigit 3, .ofDigit 1]).superseded
      (.inOrder simultaneous (simultaneous.rotate 1) .empty)
      (Chronicle.lineOf (.ofDigit 2) (.ofDigit 3)) = [.ofDigit 2] := by decide +kernel
  have nothing : (new "source" 0 0 : Service Empty).superseded
      (.inOrder simultaneous (simultaneous.rotate 1) .empty)
      (Chronicle.lineOf (.ofDigit 2) (.ofDigit 3)) = [] := by decide +kernel
  rw [old] at gone sheds
  rw [nothing] at none
  exact ⟨_, after, gone, rfl, sheds.lost _ List.mem_cons_self,
    fun id kept => sheds.retrieves id (by simpa using kept), _, none⟩

end Service

end Rollback
