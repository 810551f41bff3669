import Rollback.Service.Basic

/-!
# Taking and restoring checkpoints

Both need the gate of the instance to be held, and name the gate that is. A checkpoint captures all
registered objects and what the instance depends on. A restore overwrites the objects and goes back
to the dependencies and the chain of the restored checkpoint, so that the next checkpoint continues
from there.
-/

namespace Rollback.Service

variable {ι σ : Type} [DecidableEq ι] [Checkpointable σ]

/-- Takes a checkpoint under a fresh id and stores it. -/
def take (s : Service ι) (w : World ι σ) (token : GateId) (fresh : CheckpointId) (now : Instant) :
    Outcome CheckpointId × Service ι × World ι σ :=
  if token ≠ s.gate then (.error (.foreignToken s.name), s, w)
  else
    match s.registry.takeSnapshots w.objects with
    | .error e => (.error e, s, w)
    | .ok snapshots =>
      match Header.new fresh s.name (s.nextTime now) s.last s.tracker.current with
      | .error e => (.error e, s, w)
      | .ok header =>
        match (s.store w).put ⟨header, snapshots⟩ with
        | (.error e, store) => (.error e, s, w.setStore s.storage store)
        | (.ok (), store) =>
          (.ok fresh, s.remember fresh header.createdAt, w.setStore s.storage store)

/-- Goes back to the dependencies and the chain of a restored checkpoint. -/
def rewind (s : Service ι) (id : CheckpointId) (h : Header) : Service ι :=
  { s with
    tracker := s.tracker.overwrite h.peers
    history := rewound s.history id h.previous
    lastCreated := later s.lastCreated h.createdAt }

/-- Restores a stored checkpoint of this instance. -/
def restore (s : Service ι) (w : World ι σ) (token : GateId) (id : CheckpointId) :
    Outcome Unit × Service ι × World ι σ :=
  if token ≠ s.gate then (.error (.foreignToken s.name), s, w)
  else
    match (s.store w).get id with
    | .error e => (.error e, s, w)
    | .ok c =>
      if c.header.owner ≠ s.name then (.error (.ownedBy id c.header.owner s.name), s, w)
      else
        match s.registry.restore c w.objects with
        | (.error e, objects) => (.error e, s, { w with objects })
        | (.ok (), objects) => (.ok (), s.rewind id c.header, { w with objects })

/-- Does what the coordinator asks for and reports it. -/
def request (s : Service ι) (w : World ι σ) (token : GateId) (r : RestoreRequest) :
    Outcome RestoreCompletion × Service ι × World ι σ :=
  match s.restore w token r.checkpoint with
  | (.ok (), s, w) => (.ok ⟨s.name, r.checkpoint⟩, s, w)
  | (.error e, s, w) => (.error e, s, w)

/-- The notice that this instance has taken a checkpoint. -/
def notice (s : Service ι) (w : World ι σ) (id : CheckpointId) (numbers : SequenceNumbers) :
    Outcome TakenNotice := do
  let c ← (s.store w).get id
  if c.header.owner ≠ s.name then .error (.takenBy id c.header.owner s.name)
  else return ⟨id, s.name, numbers, c.header⟩

end Rollback.Service
