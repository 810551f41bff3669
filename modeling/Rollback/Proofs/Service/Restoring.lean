import Mathlib.Data.List.Induction
import Rollback.Proofs.Recovery.Greatest
import Rollback.Proofs.Service.Sessions
import Rollback.Snapshot.Cell

/-!
# After a restore

A restore abandons what its service took after the restored checkpoint. What the service takes since
then is chained behind the restored checkpoint, and newer than all that it took before. The store
still holds what was abandoned, and a recovery line ranges over all that is stored: it may go back to
an abandoned checkpoint (`abandoned_selected`), but only if no consistent selection has the instance
on a checkpoint that was taken since (`line_since_restore`).
-/

namespace Rollback

theorem DistinctIds.mem_of_id {headers part : List Header} (distinct : DistinctIds headers)
    (inside : ∀ h ∈ part, h ∈ headers) {h : Header} (member : h ∈ headers)
    (same : h.id ∈ part.map (·.id)) : h ∈ part := by
  obtain ⟨k, known, same⟩ := List.mem_map.mp same
  rwa [distinct.eq_of_id member (inside k known) same.symm]

/-- Chained behind a checkpoint: it, or one of the given headers that follows one that is. -/
inductive Chained (headers : List Header) (first : CheckpointId) : CheckpointId → Prop where
  | refl : Chained headers first first
  | next {h : Header} (member : h ∈ headers) (behind : Chained headers first h.previous) :
    Chained headers first h.id

namespace Session

variable {ι σ : Type}

section Since

variable {n : Session ι σ} {name : String} {headers found : List Header}
  {earlier later : List Deed} {id : CheckpointId} (archive : Archive name headers n) (log : n.log = earlier ++ .restored id :: later)

include archive log

/-- The headers of what was taken before and since. -/
theorem exists_parts : ∃ before since, headers = before ++ since ∧
    before.map (·.id) = Deed.taken earlier ∧ since.map (·.id) = Deed.taken later := by
  have taken : headers.map (·.id) = Deed.taken earlier ++ Deed.taken later := by
    rw [archive.taken, log, Deed.taken_append]
    rfl
  obtain ⟨before, since, rfl, front, back⟩ := List.map_eq_append_iff.mp taken
  exact ⟨before, since, rfl, front, back⟩

theorem isOlder_since (listed : n.listing = .ok found) (distinct : DistinctIds found)
    {a b : Header} (here : a ∈ found) (first : a.id ∈ Deed.taken earlier) (there : b ∈ found)
    (second : b.id ∈ Deed.taken later) : a.isOlder b = true := by
  obtain ⟨before, since, rfl, front, back⟩ := exists_parts archive log
  have inside := archive.listed found listed
  rw [← front] at first
  rw [← back] at second
  have old : a ∈ before :=
    distinct.mem_of_id (fun h member => inside h (List.mem_append_left _ member)) here first
  have new : b ∈ since :=
    distinct.mem_of_id (fun h member => inside h (List.mem_append_right _ member)) there second
  exact Header.isOlder_of_createdAt ((List.pairwise_append.mp archive.dated.ordered).2.2 a old b new)

theorem exists_follows (listed : n.listing = .ok found) {front back : List Deed}
    {fresh : CheckpointId} (place : later = front ++ .took fresh :: back) :
    ∃ h ∈ found.filter (·.id ∈ Deed.taken later), h.id = fresh ∧ h.owner = name ∧
      h.previous = Deed.stand (.restored id :: front) := by
  have place' : n.log = (earlier ++ .restored id :: front) ++ .took fresh :: back := by
    simp [log, place]
  obtain ⟨h, member, rfl, follows⟩ := archive.previous _ fresh back place'
  refine ⟨h, ?_, rfl, archive.owned h member, ?_⟩
  · rw [List.mem_filter, decide_eq_true_eq, Deed.mem_taken, place]
    exact ⟨archive.listed found listed h member, by simp⟩
  · rw [follows, Deed.stand_append]

/-- What was taken since is chained behind the restored checkpoint or behind one that was restored
later. -/
theorem chained_since (listed : n.listing = .ok found) {front back : List Deed}
    {fresh : CheckpointId} (place : later = front ++ .took fresh :: back) :
    ∃ root, (root = id ∨ .restored root ∈ later) ∧
      Chained (found.filter (·.id ∈ Deed.taken later)) root fresh := by
  induction front using List.reverseRecOn generalizing fresh back with
  | nil =>
    obtain ⟨h, member, rfl, _, follows⟩ := exists_follows archive log listed place
    exact ⟨id, Or.inl rfl, .next member (follows ▸ .refl)⟩
  | append_singleton front d ih =>
    obtain ⟨h, member, rfl, _, follows⟩ := exists_follows archive log listed place
    rw [← List.cons_append, Deed.stand_concat] at follows
    rw [List.append_assoc] at place
    cases d with
    | took before =>
      obtain ⟨root, restored, behind⟩ := ih place
      exact ⟨root, restored, .next member (follows ▸ behind)⟩
    | restored root =>
      exact ⟨root, Or.inr (by simp [place]), .next member (follows ▸ .refl)⟩

end Since

variable [Checkpointable σ] [DecidableEq ι]

/-- After a restore, each checkpoint that the service takes is chained behind the restored one or
behind one that it restores later, through checkpoints taken since, and it is newer than all that
the service took before. A line goes back to one of those, abandoned or not, only if no consistent
selection has the instance on a checkpoint taken since. -/
theorem line_since_restore (world : World ι σ) (name : String) (storage : StoreId) (gate : GateId)
    (retained : Nat) (actions : List (Action ι σ)) {n : Session ι σ}
    (runs : (start world name storage gate retained).run actions = n) {earlier later : List Deed}
    {id : CheckpointId} (log : n.log = earlier ++ .restored id :: later) {failed : List String}
    {graph : Graph} {line : Line}
    (computes : n.service.line n.world failed graph = .ok line) :
    ∃ found c, n.listing = .ok found ∧ Chronicle.ofHeaders found graph = .ok c ∧
      (∀ fresh ∈ Deed.taken later, ∃ b ∈ found, b.id = fresh ∧ b.owner = name ∧
        (∃ root, (root = id ∨ .restored root ∈ later) ∧
          Chained (found.filter (·.id ∈ Deed.taken later)) root fresh) ∧
        ∀ a ∈ found, a.id ∈ Deed.taken earlier → a.isOlder b = true) ∧
      ∀ a ∈ found, a.id ∈ Deed.taken earlier →
        line.checkpointFor name = some a.id →
          ∀ selected, c.Consistent failed true selected →
            ∀ b, (c.history name)[selected name]? = some b → b.id ∉ Deed.taken later := by
  obtain ⟨headers, archive⟩ :=
    exists_archive_run (Archive.start world name storage gate retained) actions
  rw [runs, List.nil_append] at archive
  obtain ⟨found, c, listed, accepted, recovers⟩ := Service.line_eq_ok_iff.mp computes
  have distinct := Chronicle.distinct_of_accepted accepted
  refine ⟨found, c, listed, accepted, ?_, ?_⟩
  · intro fresh taken
    obtain ⟨front, back, place⟩ := List.append_of_mem (Deed.mem_taken.mp taken)
    obtain ⟨b, member, rfl, owned, _⟩ := exists_follows archive log listed place
    have there := List.mem_of_mem_filter member
    refine ⟨b, there, rfl, owned, chained_since archive log listed place, ?_⟩
    intro a here first
    exact isOlder_since archive log listed distinct here first there taken
  · intro a here first chosen selected consistent b stands second
    obtain ⟨position, top, above⟩ :=
      Chronicle.greatest_of_checkpointFor accepted recovers here chosen
    have there := ((Chronicle.mem_history accepted).mp (List.mem_of_getElem? stands)).1
    have newer := isOlder_since archive log listed distinct here first there second
    have below := Chronicle.not_isOlder_of_le accepted (above selected consistent) stands top
    rw [newer] at below
    contradiction

/-- A sink takes two checkpoints and goes back to the first. -/
def rewindingRun : List (Action Empty Cell) := [
  .take 0 (.ofDigit 1) Instant.epoch.tick,
  .take 0 (.ofDigit 2) Instant.epoch.tick,
  .restore 0 (.ofDigit 1)]

def sourceHeader : Header where
  id := .ofDigit 4
  owner := "source"
  createdAt := Instant.epoch.tick.tick.tick.tick
  dependencies := (∅ : Dependencies).insert "source" .nil

/-- Then it consumes what the source has sent after a checkpoint, and takes a third one. -/
def resumingRun : List (Action Empty Cell) := rewindingRun ++ [
  .put ⟨sourceHeader, ∅⟩,
  .receive "source" ⟨.ofDigit 4⟩,
  .take 0 (.ofDigit 3) Instant.epoch.tick]

/-- The two checkpoints of the sink before it goes back. -/
def sinkHeaders : List Header := [
  ⟨.ofDigit 1, "sink", Instant.epoch.tick, (∅ : Dependencies).insert "sink" .nil⟩,
  ⟨.ofDigit 2, "sink", Instant.epoch.tick.tick, (∅ : Dependencies).insert "sink" (.ofDigit 1)⟩]

def resumedHeader : Header where
  id := .ofDigit 3
  owner := "sink"
  createdAt := Instant.epoch.tick.tick.tick
  dependencies :=
    ((∅ : Dependencies).insert "source" (.ofDigit 4)).insert "sink" (.ofDigit 1)

def rewound : Session Empty Cell := (start .initial "sink" 0 0 16).run rewindingRun

def resumed : Session Empty Cell := (start .initial "sink" 0 0 16).run resumingRun

/-- If the source fails, its messages are lost that the third checkpoint depends on, and no other
checkpoint was taken since. -/
theorem line_since_rewound :
    resumed.service.line resumed.world ["source"] Chronicle.oneEdge =
      .ok (Chronicle.lineOf (.ofDigit 4) (.ofDigit 2)) ∧
    ∃ found c, resumed.listing = .ok found ∧ Chronicle.ofHeaders found Chronicle.oneEdge = .ok c ∧
      (∃ b ∈ found, b.id = .ofDigit 3 ∧ b.owner = "sink" ∧
        (∃ root, (root = .ofDigit 1 ∨ .restored root ∈ [Deed.took (.ofDigit 3)]) ∧
          Chained (found.filter (·.id ∈ Deed.taken [.took (.ofDigit 3)])) root (.ofDigit 3)) ∧
        ∀ a ∈ found, a.id ∈ Deed.taken [.took (.ofDigit 1), .took (.ofDigit 2)] →
          a.isOlder b = true) ∧
      ∀ selected, c.Consistent ["source"] true selected →
        ∀ b, (c.history "sink")[selected "sink"]? = some b → b.id ≠ .ofDigit 3 := by
  obtain ⟨listed, log⟩ : resumed.listing = .ok (sinkHeaders ++ [resumedHeader, sourceHeader]) ∧
      resumed.log = [.took (.ofDigit 1), .took (.ofDigit 2)] ++
        .restored (.ofDigit 1) :: [.took (.ofDigit 3)] := by decide +kernel
  have accepted : Chronicle.ofHeaders (sinkHeaders ++ [resumedHeader, sourceHeader])
      Chronicle.oneEdge = .ok (.inOrder (sinkHeaders ++ [resumedHeader, sourceHeader])
        (sinkHeaders ++ [resumedHeader, sourceHeader]) Chronicle.oneEdge) :=
    Chronicle.ofHeaders_eq_inOrder (by decide +kernel) (.refl _) (by decide +kernel)
  have recovers : (Chronicle.inOrder (sinkHeaders ++ [resumedHeader, sourceHeader])
      (sinkHeaders ++ [resumedHeader, sourceHeader]) Chronicle.oneEdge).recover ["source"] =
      .ok (Chronicle.lineOf (.ofDigit 4) (.ofDigit 2)) :=
    Chronicle.recover_of_lineWithin (n := 3) (by decide +kernel)
  have computes : resumed.service.line resumed.world ["source"] Chronicle.oneEdge =
      .ok (Chronicle.lineOf (.ofDigit 4) (.ofDigit 2)) :=
    Service.line_eq_ok_iff.mpr ⟨_, _, listed, accepted, recovers⟩
  obtain ⟨found, c, listed', accepted', since, selects⟩ :=
    line_since_restore .initial "sink" 0 0 16 resumingRun (n := resumed) rfl log computes
  cases Except.ok.inj (listed.symm.trans listed')
  refine ⟨computes, _, c, listed, accepted', since (.ofDigit 3) (by decide), ?_⟩
  intro selected consistent b stands third
  exact selects sinkHeaders[1] (by decide +kernel) (by decide +kernel) (by decide +kernel)
    selected consistent b stands (third ▸ List.mem_cons_self)

/-! ## What was abandoned is still there -/

/-- Taken before a restore, and newer than the restored checkpoint. -/
def Abandoned (found : List Header) (earlier : List Deed) (id : CheckpointId) (a : Header) : Prop :=
  a ∈ found ∧ a.id ∈ Deed.taken earlier ∧ ∃ k ∈ found, k.id = id ∧ k.isOlder a = true

/-- The line goes back to nothing that a restore has abandoned, unless a later restore went back to
it or to a checkpoint that is chained behind it. -/
def SparesAbandoned (n : Session ι σ) (found : List Header) (line : Line) : Prop :=
  ∀ earlier id later, n.log = earlier ++ .restored id :: later →
    ∀ a, Abandoned found earlier id a → line.checkpointFor n.service.name = some a.id →
      ∃ root, .restored root ∈ later ∧ Chained found a.id root

/-- If the sink fails, it goes back to its second checkpoint, which it has abandoned. -/
theorem abandoned_selected : ∃ line, rewound.listing = .ok sinkHeaders ∧
    rewound.service.line rewound.world ["sink"] .empty = .ok line ∧
    ¬ SparesAbandoned rewound sinkHeaders line := by
  obtain ⟨listed, log, named⟩ : rewound.listing = .ok sinkHeaders ∧
      rewound.log = [.took (.ofDigit 1), .took (.ofDigit 2)] ++ [.restored (.ofDigit 1)] ∧
      rewound.service.name = "sink" := by decide +kernel
  have accepted : Chronicle.ofHeaders sinkHeaders .empty =
      .ok (.inOrder sinkHeaders sinkHeaders .empty) :=
    Chronicle.ofHeaders_eq_inOrder (by decide +kernel) (.refl _) (by decide +kernel)
  have recovers : (Chronicle.inOrder sinkHeaders sinkHeaders .empty).recover ["sink"] =
      .ok ⟨(∅ : Dependencies).insert "sink" (.ofDigit 2)⟩ :=
    Chronicle.recover_of_lineWithin (n := 1) (by decide +kernel)
  refine ⟨_, listed, Service.line_eq_ok_iff.mpr ⟨_, _, listed, accepted, recovers⟩, ?_⟩
  have abandoned : Abandoned sinkHeaders [.took (.ofDigit 1), .took (.ofDigit 2)] (.ofDigit 1)
      ⟨.ofDigit 2, "sink", Instant.epoch.tick.tick,
        (∅ : Dependencies).insert "sink" (.ofDigit 1)⟩ := by
    unfold Abandoned
    decide +kernel
  have chosen : Line.checkpointFor ⟨(∅ : Dependencies).insert "sink" (.ofDigit 2)⟩
      rewound.service.name = some (.ofDigit 2) := by
    rw [named]
    decide +kernel
  intro spares
  obtain ⟨_, later, _⟩ := spares _ _ [] log _ abandoned chosen
  cases later

end Session

end Rollback
