import Rollback.Recovery.Search
import Rollback.Service.Basic

/-!
# Recovery and garbage

The recovery line is computed from the headers of all stored checkpoints. Once it is known, the
instance's own checkpoints that are older than its selection are garbage.
-/

namespace Rollback.Service

variable {ι σ : Type}

def line (s : Service ι) (w : World ι σ) (failed : List String) (graph : Graph) : Outcome Line := do
  let headers ← (s.store w).headers none
  let chronicle ← Chronicle.ofHeaders headers graph
  chronicle.recover failed

/-- Deletes checkpoints one after the other and forgets them; counts those that were still there. -/
def deleteAll (s : Service ι) (w : World ι σ) (deleted : Nat) :
    List CheckpointId → Outcome Nat × Service ι × World ι σ
  | [] => (.ok deleted, s, w)
  | id :: rest =>
    match (s.store w).delete id with
    | (.error e, store) => (.error e, s, w.setStore s.storage store)
    | (.ok present, store) =>
      deleteAll { s with history := s.history.filter (· ≠ id) } (w.setStore s.storage store)
        (deleted + present.toNat) rest

/-- Deletes the own checkpoints that are older than the line's selection, if the line selects a
stored one. -/
def collect (s : Service ι) (w : World ι σ) (line : Line) : Outcome Nat × Service ι × World ι σ :=
  match line.checkpointFor s.name with
  | none => (.ok 0, s, w)
  | some keep =>
    match (s.store w).headers (some s.name) with
    | .error e => (.error e, s, w)
    | .ok own =>
      match own.find? (·.id = keep) with
      | none => (.ok 0, s, w)
      | some kept => s.deleteAll w 0 ((own.filter (·.isOlder kept)).map (·.id))

/-- Deletes every checkpoint of every instance and forgets the own chain. -/
def clear (s : Service ι) (w : World ι σ) : Outcome Unit × Service ι × World ι σ :=
  match (s.store w).clear with
  | (.ok (), store) => (.ok (), { s with history := [] }, w.setStore s.storage store)
  | (.error e, store) => (.error e, s, w.setStore s.storage store)

end Rollback.Service
