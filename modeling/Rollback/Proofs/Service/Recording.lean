import Rollback.Proofs.Service.Steps
import Rollback.Proofs.Store.Requests
import Rollback.Snapshot.Cell

/-!
# What a checkpoint records of others

A service hears of the checkpoints of its peers through updates and tags, and goes back to what a
checkpoint records when it restores it (`learns_call`). Whatever else it is called for, and whatever
others do to its store meanwhile, its next checkpoint records of every peer what was heard last
(`dependencies_of_take`). Under its own name it records its own newest checkpoint, also when a tag
says something else.
-/

namespace Rollback.Service

variable {ι σ : Type}

/-- What the service hears of its peers. -/
inductive Report where
  | told (peer : String) (id : CheckpointId)
  /-- It goes back to what a checkpoint of its own records. -/
  | restored (h : Header)

/-- The checkpoint of a peer of which was heard last, if the newest report comes first. A restore
takes back all that was heard before. -/
def heard? (peer : String) : List Report → Option CheckpointId
  | [] => none
  | .told other id :: earlier => if other = peer then some id else heard? peer earlier
  | .restored h :: _ => h.dependencies[peer]?

/-- What happens to a service. -/
inductive Call (ι σ : Type) where
  | register (key : String) (handle : ι)
  | update (peer : String) (id : CheckpointId)
  | receive (peer : String) (tag : DependencyTag)
  | take (token : GateId) (fresh : CheckpointId) (now : Instant)
  | restore (token : GateId) (id : CheckpointId)
  | request (token : GateId) (r : RestoreRequest)
  | collect (line : Line)
  | clear
  /-- Others leave the objects and the stores like this. -/
  | meanwhile (world : World ι σ)

section

variable [DecidableEq ι] [Checkpointable σ]

def call (s : Service ι) (w : World ι σ) : Call ι σ → Service ι × World ι σ
  | .register key handle => ((s.register key handle).2, w)
  | .update peer id => (s.update peer id, w)
  | .receive peer tag => (s.receive peer tag, w)
  | .take token fresh now => (s.take w token fresh now).2
  | .restore token id => (s.restore w token id).2
  | .request token r => (s.request w token r).2
  | .collect line => (s.collect w line).2
  | .clear => (s.clear w).2
  | .meanwhile world => (s, world)

/-- The report of a restore, unless it fails. -/
def restored? (s : Service ι) (w : World ι σ) (token : GateId) (id : CheckpointId) :
    Option Report :=
  match (s.restore w token id).1, (s.store w).get id with
  | .ok (), .ok c => some (.restored c.header)
  | _, _ => none

/-- What the service hears in a call. A nil tag says nothing. -/
def report? (s : Service ι) (w : World ι σ) : Call ι σ → Option Report
  | .update peer id => some (.told peer id)
  | .receive peer tag =>
    if tag.checkpoint.isNil then none else some (.told peer tag.checkpoint)
  | .restore token id => s.restored? w token id
  | .request token r => s.restored? w token r.checkpoint
  | _ => none

end

/-- What a report does to a service. -/
inductive Learns (s s' : Service ι) : Option Report → Prop where
  | nothing (same : s'.tracker = s.tracker) : Learns s s' none
  | told {peer : String} {id : CheckpointId} (updated : s'.tracker = s.tracker.update peer id) :
      Learns s s' (some (.told peer id))
  | restored {h : Header} (own : h.owner = s.name)
      (overwritten : s'.tracker = s.tracker.overwrite h.peers) : Learns s s' (some (.restored h))

/-- What was heard last of another instance is in the tracker again after a report. -/
theorem Learns.dependency? {s s' : Service ι} {report : Option Report} {reports : List Report}
    {peer : String} (learns : s.Learns s' report)
    (tracked : s.tracker.dependency? peer = heard? peer reports) (other : peer ≠ s.name) :
    s'.tracker.dependency? peer = heard? peer (report.toList ++ reports) := by
  cases learns with
  | nothing same =>
    rw [same]
    exact tracked
  | told updated =>
    rw [updated, Tracker.dependency?_update, tracked]
    rfl
  | @restored h own overwritten =>
    -- only what the checkpoint records under the name of its owner is left out
    have different : ¬ s.name = peer := other ∘ Eq.symm
    rw [overwritten]
    simp [Tracker.dependency?, Tracker.overwrite, Header.peers, Std.ExtTreeMap.getElem?_erase,
      heard?, own, different]

variable (s : Service ι) (w : World ι σ)

theorem deleteAll_same (deleted : Nat) (ids : List CheckpointId) :
    (s.deleteAll w deleted ids).2.1.name = s.name ∧
      (s.deleteAll w deleted ids).2.1.tracker = s.tracker := by
  induction ids generalizing s w deleted with
  | nil => exact ⟨rfl, rfl⟩
  | cons id rest ih =>
    unfold deleteAll
    split
    · exact ⟨rfl, rfl⟩
    · exact ih _ _ _

theorem collect_same (line : Line) :
    (s.collect w line).2.1.name = s.name ∧ (s.collect w line).2.1.tracker = s.tracker := by
  unfold collect
  split
  · exact ⟨rfl, rfl⟩
  · split
    · exact ⟨rfl, rfl⟩
    · split
      · exact ⟨rfl, rfl⟩
      · exact deleteAll_same s w 0 _

theorem clear_same : (s.clear w).2.1.name = s.name ∧ (s.clear w).2.1.tracker = s.tracker := by
  unfold clear
  split <;> exact ⟨rfl, rfl⟩

variable [Checkpointable σ]

theorem take_same (token : GateId) (fresh : CheckpointId) (now : Instant) :
    (s.take w token fresh now).2.1.name = s.name ∧
      (s.take w token fresh now).2.1.tracker = s.tracker := by
  obtain ⟨result, s', w', took⟩ : ∃ result s' w', s.take w token fresh now = (result, s', w') :=
    ⟨_, _, _, rfl⟩
  rw [took]
  obtain ⟨_, _, _, _, _, _, rfl, _⟩ | ⟨_, _, rfl, _⟩ := take_cases took <;> exact ⟨rfl, rfl⟩

variable [DecidableEq ι]

theorem learns_restore (token : GateId) (id : CheckpointId) :
    (s.restore w token id).2.1.name = s.name ∧
      s.Learns (s.restore w token id).2.1 (s.restored? w token id) := by
  obtain ⟨result, s', w', restored⟩ : ∃ result s' w', s.restore w token id = (result, s', w') :=
    ⟨_, _, _, rfl⟩
  rw [restored?, restored]
  obtain ⟨⟨c, rfl, stored, own, rfl⟩ | ⟨_, rfl, rfl⟩, _⟩ := restore_cases restored
  · rw [stored]
    exact ⟨rfl, .restored own rfl⟩
  · exact ⟨rfl, .nothing rfl⟩

theorem request_same (token : GateId) (r : RestoreRequest) :
    (s.request w token r).2 = (s.restore w token r.checkpoint).2 := by
  unfold request
  split <;> rename_i restored <;> rw [restored]

/-- The tracker of a service changes by the report of each call, and its name never does. -/
theorem learns_call (call : Call ι σ) :
    (s.call w call).1.name = s.name ∧ s.Learns (s.call w call).1 (s.report? w call) := by
  cases call with
  | register key handle =>
    simp only [Service.call, register]
    split <;> exact ⟨rfl, .nothing rfl⟩
  | update peer id => exact ⟨rfl, .told rfl⟩
  | receive peer tag =>
    simp only [Service.call, receive, report?]
    split
    · exact ⟨rfl, .nothing rfl⟩
    · exact ⟨rfl, .told rfl⟩
  | take token fresh now => exact (take_same s w token fresh now).imp_right .nothing
  | restore token id => exact learns_restore s w token id
  | request token r =>
    simp only [Service.call, request_same]
    exact learns_restore s w token r.checkpoint
  | collect line => exact (collect_same s w line).imp_right .nothing
  | clear => exact (clear_same s w).imp_right .nothing
  | meanwhile world => exact ⟨rfl, .nothing rfl⟩

/-! ## Along a run -/

/-- A service, what it shares with others, and all reports, the newest first. -/
structure Listener (ι σ : Type) where
  service : Service ι
  world : World ι σ
  reports : List Report

namespace Listener

omit [DecidableEq ι] [Checkpointable σ] in
/-- A new service over any stores. -/
def start (world : World ι σ) (name : String) (storage : StoreId) (gate : GateId)
    (retained : Nat) : Listener ι σ :=
  ⟨.new name storage gate retained, world, []⟩

def step (n : Listener ι σ) (call : Call ι σ) : Listener ι σ where
  service := (n.service.call n.world call).1
  world := (n.service.call n.world call).2
  reports := (n.service.report? n.world call).toList ++ n.reports

def run (n : Listener ι σ) (calls : List (Call ι σ)) : Listener ι σ := calls.foldl step n

/-- The tracker holds what was heard last of every peer. What is told of the service itself is left
open. -/
structure Tracks (name : String) (n : Listener ι σ) : Prop where
  named : n.service.name = name
  tracked : ∀ peer, peer ≠ name → n.service.tracker.dependency? peer = heard? peer n.reports

namespace Tracks

variable {name : String} {n : Listener ι σ}

theorem step (tracks : Tracks name n) (call : Call ι σ) : Tracks name (n.step call) := by
  obtain ⟨same, learns⟩ := n.service.learns_call n.world call
  exact ⟨same.trans tracks.named, fun peer other =>
    learns.dependency? (tracks.tracked peer other) (tracks.named ▸ other)⟩

theorem run (tracks : Tracks name n) (calls : List (Call ι σ)) : Tracks name (n.run calls) := by
  induction calls generalizing n with
  | nil => exact tracks
  | cons call rest ih => exact ih (tracks.step call)

end Tracks

omit [DecidableEq ι] [Checkpointable σ] in
theorem tracks_start (world : World ι σ) (name : String) (storage : StoreId) (gate : GateId)
    (retained : Nat) : Tracks name (start world name storage gate retained) :=
  ⟨rfl, fun _ _ => rfl⟩

end Listener

open Listener

/-- Whatever a service was called for, the checkpoint that it takes and stores records its own
newest checkpoint under its name, of every other peer what was heard last, and nothing else. -/
theorem dependencies_of_take (world : World ι σ) (name : String) (storage : StoreId)
    (gate : GateId) (retained : Nat) (calls : List (Call ι σ)) {n : Listener ι σ}
    (ran : (start world name storage gate retained).run calls = n) {token : GateId}
    {fresh id : CheckpointId} {now : Instant} {s' : Service ι} {w' : World ι σ}
    (took : n.service.take n.world token fresh now = (.ok id, s', w')) :
    ∃ c, (n.service.store n.world).put c = (.ok (), s'.store w') ∧ (s'.store w').Stores c ∧
      c.id = id ∧ c.header.owner = name ∧
      ∀ peer, c.header.dependencies[peer]? =
        if peer = name then some n.service.last else heard? peer n.reports := by
  have tracks : Tracks name n := ran ▸ (tracks_start world name storage gate retained).run calls
  obtain ⟨h, snapshots, store, same, rfl, stored, rfl, rfl⟩ | ⟨e, failed, _⟩ := take_cases took
  · cases same
    have here : (n.service.remember fresh (n.service.nextTime now)).store
        (n.world.setStore n.service.storage store) = store := by
      simp [Service.store, remember, World.setStore]
    rw [here]
    refine ⟨_, stored, Store.stores_put stored, rfl, tracks.named, fun peer => ?_⟩
    simp only [tracks.named, Std.ExtTreeMap.getElem?_insert, Std.LawfulEqCmp.compare_eq_iff_eq]
    by_cases own : peer = name
    · rw [if_pos own.symm, if_pos own]
    · rw [if_neg (own ∘ Eq.symm), if_neg own]
      exact tracks.tracked peer own
  · cases failed

/-- A sink consumes messages after the first checkpoint of a source, takes a checkpoint of its own,
consumes more, is told of itself, and goes back. -/
def returningRun : List (Call Empty Cell) := [
  .receive "source" ⟨.ofDigit 4⟩,
  .take 0 (.ofDigit 1) Instant.epoch.tick,
  .update "source" (.ofDigit 5),
  .receive "filter" ⟨.ofDigit 6⟩,
  .restore 0 (.ofDigit 1),
  .receive "sink" ⟨.ofDigit 7⟩,
  .receive "filter" ⟨.nil⟩]

def returned : Listener Empty Cell := (start .initial "sink" 0 0 16).run returningRun

/-- Its next checkpoint depends on the first checkpoint of the source and on its own. -/
theorem dependencies_of_take_returned : ∃ s' w' c,
    returned.service.take returned.world 0 (.ofDigit 2) Instant.epoch.tick =
      (.ok (.ofDigit 2), s', w') ∧
    (s'.store w').Stores c ∧ c.id = .ofDigit 2 ∧
    c.header.dependencies["sink"]? = some (.ofDigit 1) ∧
    c.header.dependencies["source"]? = some (.ofDigit 4) ∧
    c.header.dependencies["filter"]? = none := by
  obtain ⟨succeeds, last, source, filter⟩ :
      (returned.service.take returned.world 0 (.ofDigit 2) Instant.epoch.tick).1 =
        .ok (.ofDigit 2) ∧ returned.service.last = .ofDigit 1 ∧
      heard? "source" returned.reports = some (.ofDigit 4) ∧
      heard? "filter" returned.reports = none := by decide +kernel
  cases took : returned.service.take returned.world 0 (.ofDigit 2) Instant.epoch.tick with
  | mk result after =>
    obtain ⟨s', w'⟩ := after
    rw [took] at succeeds
    cases succeeds
    obtain ⟨c, _, stores, same, _, records⟩ :=
      dependencies_of_take .initial "sink" 0 0 16 returningRun (n := returned) rfl took
    refine ⟨s', w', c, rfl, stores, same, ?_, ?_, ?_⟩
    · rw [records, if_pos rfl, last]
    · rw [records, if_neg (by decide), source]
    · rw [records, if_neg (by decide), filter]

end Rollback.Service
