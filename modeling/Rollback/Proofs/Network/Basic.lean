import Rollback.Service.Checkpointing
import Rollback.Service.Collection

/-!
# Networks of services

A network has a service for each instance and one store for the checkpoints of all of them. The
instances take checkpoints, work on their objects and send messages along the edges of the graph. A
message carries the tag that its sender has at that moment; what one instance sends to another is
consumed in the order of sending, and the receiver takes in the tag. The log holds what happened, in
its order.
-/

namespace Rollback

inductive Event where
  | took (name : String) (id : CheckpointId)
  | sent (source target : String)
  /-- The message that was sent at this place of the log was consumed. -/
  | consumed (source target : String) (place : Nat)
  deriving DecidableEq

/-- A message on its way: where in the log it was sent, and the tag that it carries. -/
structure Parcel where
  place : Nat
  tag : Option DependencyTag

/-- The services of the instances, what they share, and the messages between them. -/
structure Network (ι σ : Type) where
  services : String → Service ι
  world : World ι σ
  /-- What is on its way from one instance to another, in the order of sending. -/
  channels : String → String → List Parcel
  log : List Event

namespace Network

variable {ι σ : Type}

/-- Services without checkpoints that share a store, and no message on its way. -/
def start (world : World ι σ) (storage : StoreId) (gates : String → GateId)
    (registries : String → Registry ι) (retained : String → Nat) : Network ι σ where
  services name := { (Service.new name storage (gates name) (retained name) : Service ι) with
    registry := registries name }
  world := world
  channels _ _ := []
  log := []

def setService (n : Network ι σ) (name : String) (s : Service ι) : Network ι σ :=
  { n with services := fun other => if other = name then s else n.services other }

def setChannel (n : Network ι σ) (source target : String) (parcels : List Parcel) : Network ι σ :=
  { n with channels := fun a b => if a = source ∧ b = target then parcels else n.channels a b }

def setWorld (n : Network ι σ) (world : World ι σ) : Network ι σ := { n with world }

def note (n : Network ι σ) (e : Event) : Network ι σ := { n with log := n.log ++ [e] }

inductive Action (ι σ : Type) where
  | take (name : String) (token : GateId) (fresh : CheckpointId) (real : fresh ≠ .nil)
      (now : Instant)
  | send (source target : String)
  | consume (source target : String)
  /-- The objects change. -/
  | work (objects : Heap ι σ)

/-- A message without a tag tells nothing of its sender. -/
def accept (s : Service ι) (source : String) (tag : Option DependencyTag) : Service ι :=
  match tag with
  | some tag => s.receive source tag
  | none => s

variable [Checkpointable σ]

/-- A checkpoint that cannot be taken leaves no event. -/
def take (n : Network ι σ) (name : String) (token : GateId) (fresh : CheckpointId)
    (now : Instant) : Network ι σ :=
  match (n.services name).take n.world token fresh now with
  | (.ok id, s, world) => ((n.setService name s).setWorld world).note (.took name id)
  | (.error _, s, world) => (n.setService name s).setWorld world

def send (n : Network ι σ) (graph : Graph) (source target : String) : Network ι σ :=
  if (⟨source, target⟩ : Edge) ∈ graph.edges then
    (n.setChannel source target
      (n.channels source target ++ [⟨n.log.length, (n.services source).tag?⟩])).note
      (.sent source target)
  else n

def consume (n : Network ι σ) (source target : String) : Network ι σ :=
  match n.channels source target with
  | [] => n
  | parcel :: rest =>
    ((n.setService target (accept (n.services target) source parcel.tag)).setChannel source target
      rest).note (.consumed source target parcel.place)

def step (graph : Graph) (n : Network ι σ) : Action ι σ → Network ι σ
  | .take name token fresh _ now => n.take name token fresh now
  | .send source target => n.send graph source target
  | .consume source target => n.consume source target
  | .work objects => n.setWorld { n.world with objects }

def run (graph : Graph) (n : Network ι σ) (actions : List (Action ι σ)) : Network ι σ :=
  actions.foldl (step graph) n

end Network

/-- The message that was sent at a place of the log is an orphan of a line: its sender goes back to
a checkpoint before it was sent, and its receiver keeps a state in which it was consumed, or goes
back to a checkpoint that it took after consuming it. -/
def IsOrphan (log : List Event) (line : Line) (place : Nat) : Prop :=
  ∃ source target, log[place]? = some (.sent source target) ∧
    (∃ id, line.checkpointFor source = some id ∧
      ∃ before < place, log[before]? = some (.took source id)) ∧
    ∃ met : Nat, log[met]? = some (.consumed source target place) ∧
      ∀ id, line.checkpointFor target = some id →
        ∃ after > met, log[after]? = some (.took target id)

end Rollback
