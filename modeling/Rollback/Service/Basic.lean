import Rollback.Message.Payload
import Rollback.Settings.Basic
import Rollback.Tracker
import Rollback.World

/-!
# Services

A service is the checkpointing side of one instance: the objects that opted in, the dependencies
that came with its input, and its chain of own checkpoints. Only the newest of the chain are
remembered.
-/

namespace Rollback

/-- The checkpointing side of one instance. -/
structure Service (ι : Type) where
  name : String
  storage : StoreId
  gate : GateId
  registry : Registry ι
  tracker : Tracker
  /-- How many own checkpoints are remembered. -/
  retained : Nat
  /-- The own checkpoints that are remembered, oldest first. -/
  history : List CheckpointId
  /-- When the newest own checkpoint was created. -/
  lastCreated : Option Instant

namespace Service

variable {ι σ : Type}

/-- A service without objects and checkpoints. It remembers at least two checkpoints. -/
def new (name : String) (storage : StoreId) (gate : GateId) (retained : Nat := 16) :
    Service ι where
  name := name
  storage := storage
  gate := gate
  registry := .empty
  tracker := .empty
  retained := max retained 2
  history := []
  lastCreated := none

/-- A service with settings that can be used, and the store that its backend opens. -/
def ofSettings (settings : Settings) (found : Except FileFault (NameMap DirectoryEntry))
    (storage : StoreId) (gate : GateId) : Outcome (Service ι × Store) := do
  settings.validate
  let store ← Store.openBackend found settings.backend
  return (new settings.name storage gate settings.retained, store)

/-! ## The chain of own checkpoints -/

/-- The newest own checkpoint, nil if there is none. -/
def last (s : Service ι) : CheckpointId := s.history.getLast?.getD .nil

/-- The own checkpoint before the newest, nil if there is none. -/
def secondLast (s : Service ι) : CheckpointId := s.history.dropLast.getLast?.getD .nil

/-- The tag of outgoing messages, once there is a checkpoint. -/
def tag? (s : Service ι) : Option DependencyTag := s.history.getLast?.map (⟨·⟩)

/-- The newest entries of a chain, as many as are remembered. -/
def newest (retained : Nat) (history : List CheckpointId) : List CheckpointId :=
  history.drop (history.length - retained)

theorem length_newest_le (retained : Nat) (history : List CheckpointId) :
    (newest retained history).length ≤ retained := by
  simp [newest]; omega

def remember (s : Service ι) (id : CheckpointId) (createdAt : Instant) : Service ι :=
  { s with history := newest s.retained (s.history ++ [id]), lastCreated := some createdAt }

/-- The creation time of the next checkpoint: the clock, or just behind the last checkpoint if the
clock has not passed it. -/
def nextTime (s : Service ι) (now : Instant) : Instant :=
  match s.lastCreated with
  | some before => if (compare now before).isLE then before.tick else now
  | none => now

/-- The chain that ends in a restored checkpoint: what led to it, if that is remembered, or else
the checkpoint before it. -/
def rewound (history : List CheckpointId) (id previous : CheckpointId) : List CheckpointId :=
  match history.findIdx? (· = id) with
  | some position => history.take (position + 1)
  | none => if previous = .nil then [id] else [previous, id]

/-- The later one of two creation times. -/
def later (before : Option Instant) (createdAt : Instant) : Option Instant :=
  match before with
  | some t => if compare t createdAt = .lt then some createdAt else some t
  | none => some createdAt

/-! ## Objects and dependencies -/

def store (s : Service ι) (w : World ι σ) : Store := w.stores s.storage

def register (s : Service ι) (key : String) (handle : ι) : Outcome Unit × Service ι :=
  match s.registry.add key handle with
  | .ok registry => (.ok (), { s with registry })
  | .error e => (.error e, s)

/-- Records the newest checkpoint that is known of a peer. -/
def update (s : Service ι) (peer : String) (id : CheckpointId) : Service ι :=
  { s with tracker := s.tracker.update peer id }

/-- Takes in the tag of a message from a peer; a nil tag says that the peer has no checkpoint. -/
def receive (s : Service ι) (peer : String) (tag : DependencyTag) : Service ι :=
  if tag.checkpoint.isNil then s else s.update peer tag.checkpoint

def summary (s : Service ι) : String :=
  "CheckpointService \x7b instance_name: " ++ Text.quoted s.name ++ ", registry: " ++
    s.registry.summary ++ ", last_checkpoint_id: CheckpointId(" ++ s.last.toString ++ ") \x7d"

end Service

end Rollback
