import Rollback.Service.Checkpointing
import Rollback.Service.Collection

/-!
# Commands

What a running instance can be asked to do, and what it answers. Checkpoints and restores need the
gate to be held while they wait for their turn; every other command may be sent by whoever holds
the gate.
-/

namespace Rollback

/-- What a running instance can be asked to do. -/
inductive Command (ι : Type) where
  | register (key : String) (handle : ι)
  | update (peer : String) (id : CheckpointId)
  | receive (peer : String) (tag : DependencyTag)
  | take
  | restore (id : CheckpointId)
  | request (r : RestoreRequest)
  | notice (id : CheckpointId) (numbers : SequenceNumbers)
  | line (failed : List String) (graph : Graph)
  | collect (line : Line)
  | clear

inductive Reply where
  | done
  | taken (id : CheckpointId)
  | completion (c : RestoreCompletion)
  | notice (n : TakenNotice)
  | line (l : Line)
  | deleted (count : Nat)
  deriving DecidableEq

def Reply.json : Reply → Json
  | done => .string "ok"
  | taken id => .string id.toString
  | completion c => .object c.members
  | notice n => .object n.members
  | line l => l.json
  | deleted count => .integer count

namespace Command

variable {ι σ : Type} [DecidableEq ι] [Checkpointable σ]

/-- Whether the command needs the gate to be held. -/
def pauses : Command ι → Bool
  | take | restore _ | request _ => true
  | _ => false

/-- Whether the sender waits for the answer, and not only for a place in the queue. -/
def answers : Command ι → Bool
  | update .. | receive .. => false
  | _ => true

/-- Whether the chain of own checkpoints may be another one afterwards. -/
def moves : Command ι → Bool
  | take | restore _ | request _ | collect _ | clear => true
  | _ => false

/-- Carries out a command under the token of a gate; the id and the time are for a checkpoint that
is taken. -/
def run (c : Command ι) (s : Service ι) (w : World ι σ) (token : GateId) (fresh : CheckpointId)
    (now : Instant) : Outcome Reply × Service ι × World ι σ :=
  match c with
  | register key handle =>
    let (result, s) := s.register key handle
    (result.map fun () => .done, s, w)
  | update peer id => (.ok .done, s.update peer id, w)
  | receive peer tag => (.ok .done, s.receive peer tag, w)
  | take =>
    let (result, s, w) := s.take w token fresh now
    (result.map .taken, s, w)
  | restore id =>
    let (result, s, w) := s.restore w token id
    (result.map fun () => .done, s, w)
  | request r =>
    let (result, s, w) := s.request w token r
    (result.map .completion, s, w)
  | notice id numbers => ((s.notice w id numbers).map .notice, s, w)
  | line failed graph => ((s.line w failed graph).map .line, s, w)
  | collect l =>
    let (result, s, w) := s.collect w l
    (result.map .deleted, s, w)
  | clear =>
    let (result, s, w) := s.clear w
    (result.map fun () => .done, s, w)

end Command

end Rollback
