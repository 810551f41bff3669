import Rollback.Proofs.Registry.Overwriting
import Rollback.Proofs.Service.Steps
import Rollback.Proofs.Snapshot.Lawful
import Rollback.Proofs.Store.Requests

/-!
# Checkpoints and restores that fail

What fails leaves the chain, the dependencies and the creation time of the service as they were, and
all that is stored. Objects change only if a restore gets as far as to overwrite them: it then ends
at the first object that refuses its fields (`unchanged_of_error`).
-/

namespace Rollback.Service

variable {ι σ : Type} [DecidableEq ι] [Checkpointable σ]

/-- A restore that fails before it comes to the objects. -/
inductive Declines (s : Service ι) (w : World ι σ) (token : GateId) (id : CheckpointId) :
    Error → Prop where
  | foreign (other : token ≠ s.gate) : Declines s w token id (.foreignToken s.name)
  | unread {e : Error} (failed : (s.store w).get id = .error e) : Declines s w token id e
  | owned {c : Checkpoint} (stored : (s.store w).get id = .ok c) (other : c.header.owner ≠ s.name) :
    Declines s w token id (.ownedBy id c.header.owner s.name)
  | uncovered {c : Checkpoint} (stored : (s.store w).get id = .ok c)
    (missing : s.registry.canRestore c = false) :
    Declines s w token id (.objectsMissing c.id (s.registry.missing c))

theorem restore_error_cases {s s' : Service ι} {w w' : World ι σ} {token : GateId}
    {id : CheckpointId} {e : Error} (failed : s.restore w token id = (.error e, s', w')) :
    s' = s ∧ ((s.Declines w token id e ∧ w' = w) ∨
      ∃ c key cause objects, (s.store w).get id = .ok c ∧ e = .objectRefused key cause ∧
        s.registry.StopsAt c.snapshots w.objects key cause objects ∧ w' = { w with objects }) := by
  unfold restore at failed
  split at failed
  · rename_i other
    cases failed
    exact ⟨rfl, Or.inl ⟨.foreign other, rfl⟩⟩
  · split at failed
    · rename_i e unread
      cases failed
      exact ⟨rfl, Or.inl ⟨.unread unread, rfl⟩⟩
    · rename_i c stored
      split at failed
      · rename_i other
        cases failed
        exact ⟨rfl, Or.inl ⟨.owned stored other, rfl⟩⟩
      · split at failed
        · rename_i e objects stopped
          cases failed
          obtain ⟨missing, rfl, rfl⟩ | ⟨key, cause, rfl, stops⟩ :=
            Registry.restore_error_cases stopped
          · exact ⟨rfl, Or.inl ⟨.uncovered stored missing, rfl⟩⟩
          · exact ⟨rfl, Or.inr ⟨c, key, cause, objects, stored, rfl, stops, rfl⟩⟩
        · cases failed

/-- A checkpoint that cannot be taken changes nothing. A restore that fails leaves the service, the
stores and the gates as they were, and the objects too, unless one of them refuses its fields: then
the objects with smaller keys are overwritten, and those with greater keys are not touched. -/
theorem unchanged_of_error (s : Service ι) (w : World ι σ) (token : GateId) :
    (∀ fresh now e s' w', s.take w token fresh now = (.error e, s', w') → s' = s ∧ w' = w) ∧
    ∀ id e s' w', s.restore w token id = (.error e, s', w') →
      s' = s ∧ ((s.Declines w token id e ∧ w' = w) ∨
        ∃ c key cause objects, (s.store w).get id = .ok c ∧ e = .objectRefused key cause ∧
          s.registry.StopsAt c.snapshots w.objects key cause objects ∧
          w' = { w with objects }) := by
  constructor
  · intro fresh now e s' w' failed
    obtain ⟨_, _, _, taken, _⟩ | ⟨_, _, same⟩ := take_cases failed
    · cases taken
    · exact same
  · intro id e s' w' failed
    exact restore_error_cases failed

/-- A checkpoint that holds a text under the second key. -/
def tornCheckpoint : Checkpoint where
  header := ⟨.ofDigit 1, "sink", Instant.epoch.tick, (∅ : Dependencies).insert "sink" .nil⟩
  snapshots := (((∅ : NameMap Snapshot).insert "a" ⟨(Cell.counter 1 true).fields⟩).insert
    "b" ⟨(∅ : Fields).insert "count" (.string "two")⟩).insert "c" ⟨(Cell.counter 3 true).fields⟩

/-- Two counters. The second declares a field that it does not capture. -/
def tornWorld : World Bool Cell where
  objects
    | false => .counter 7 true
    | true => { Cell.counter 8 true with declared := ["count", "total"] }
  stores _ := ((Store.memory (.empty .compact)).put tornCheckpoint).2
  gates _ := .free

/-- A service with the first counter under two keys. -/
def tornService : Service Bool where
  __ := (new "sink" 0 0 : Service Bool)
  registry := ⟨(((∅ : NameMap Bool).insert "c" true).insert "b" false).insert "a" false⟩

/-- A text is no count. -/
def tornFault : Error :=
  .wrongField (.wrongType (FieldType.describe (.string "two")) FieldType.u64.label)

theorem get_tornCheckpoint :
    (tornService.store tornWorld).get (.ofDigit 1) = .ok tornCheckpoint := by
  have stored : (Store.memory (.empty .compact)).put tornCheckpoint =
      (.ok (), tornWorld.stores 0) := Prod.ext (by decide +kernel) rfl
  have read : tornCheckpoint.ReadBack := Checkpoint.readBack_of_legible (by decide +kernel)
    (by decide +kernel) (by decide +kernel)
  have found : (tornWorld.stores 0).retrieve (.ofDigit 1) = .ok (some tornCheckpoint) :=
    (Store.stores_put stored).retrieve_readBack read
  have same : tornService.store tornWorld = tornWorld.stores 0 := rfl
  rw [Store.get, same, found]

/-- The restore ends at the first counter's second key, the second counter is as it was, and no
checkpoint can be taken. -/
theorem unchanged_of_error_torn :
    (∃ e, tornService.take tornWorld 0 (.ofDigit 2) .epoch = (.error e, tornService, tornWorld)) ∧
    ∃ w : World Bool Cell, tornService.restore tornWorld 0 (.ofDigit 1) =
        (.error (.objectRefused "b" tornFault), tornService, w) ∧
      tornService.registry.StopsAt tornCheckpoint.snapshots tornWorld.objects "b" tornFault
        w.objects ∧
      (w.objects false).hooks = [.before, .restore, .after, .before, .restore] ∧
      (w.objects true).hooks = [] := by
  obtain ⟨takes, restores⟩ := unchanged_of_error tornService tornWorld 0
  constructor
  · have refused : (tornService.take tornWorld 0 (.ofDigit 2) .epoch).1 =
        .error (.fieldMismatch "c" ["count", "total"] ["count"]) := by decide +kernel
    rcases took : tornService.take tornWorld 0 (.ofDigit 2) .epoch with ⟨result, s', w'⟩
    rw [took] at refused
    cases refused
    obtain ⟨rfl, rfl⟩ := takes _ _ _ _ _ took
    exact ⟨_, rfl⟩
  · rcases outcome : tornService.registry.restore tornCheckpoint tornWorld.objects with
      ⟨result, objects⟩
    obtain ⟨refused, first, second⟩ :
        (tornService.registry.restore tornCheckpoint tornWorld.objects).1 =
          .error (.objectRefused "b" tornFault) ∧
        ((tornService.registry.restore tornCheckpoint tornWorld.objects).2 false).hooks =
          [.before, .restore, .after, .before, .restore] ∧
        ((tornService.registry.restore tornCheckpoint tornWorld.objects).2 true).hooks = [] := by
      decide +kernel
    rw [outcome] at refused first second
    cases refused
    have restored : tornService.restore tornWorld 0 (.ofDigit 1) =
        (.error (.objectRefused "b" tornFault), tornService,
          ⟨objects, tornWorld.stores, tornWorld.gates⟩) := by
      rw [restore, if_neg (by decide), get_tornCheckpoint]
      simp only [outcome]
      rw [if_neg (by decide)]
    obtain ⟨-, ⟨_, same⟩ | ⟨c, _, _, _, stored, stopped, stops, same⟩⟩ := restores _ _ _ _ restored
    · cases (congrArg (fun w => (w.objects false).hooks) same).symm.trans first
    · cases stopped
      cases same
      cases Except.ok.inj (get_tornCheckpoint.symm.trans stored)
      exact ⟨_, restored, stops, first, second⟩

end Rollback.Service
