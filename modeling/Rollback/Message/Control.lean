import Rollback.Json.Tagged
import Rollback.Message.Pruning

/-!
# Control messages

The messages that travel on the control channel, each with a tag among its members that says which
one it is.
-/

namespace Rollback

/-- Any message on the control channel. -/
inductive Control where
  | taken (notice : TakenNotice)
  | restoreRequest (request : RestoreRequest)
  | restoreCompletion (completion : RestoreCompletion)
  | prune (request : PruneRequest)
  deriving DecidableEq

namespace Control

inductive Kind where
  | taken
  | restoreRequest
  | restoreCompletion
  | prune
  deriving DecidableEq, Repr

def Kind.tag : Kind → String
  | taken => "checkpoint_taken"
  | restoreRequest => "restore_request"
  | restoreCompletion => "restore_completion"
  | prune => "log_prune"

def Kind.tags : List (String × Kind) :=
  [taken, restoreRequest, restoreCompletion, prune].map fun k => (k.tag, k)

def kind : Control → Kind
  | taken _ => .taken
  | restoreRequest _ => .restoreRequest
  | restoreCompletion _ => .restoreCompletion
  | prune _ => .prune

/-- The members of the message without its tag. -/
def members : Control → List (String × Json)
  | taken m => m.members
  | restoreRequest m => m.members
  | restoreCompletion m => m.members
  | prune m => m.members

def json (m : Control) : Json := .object (("type", .string m.kind.tag) :: m.members)

def Kind.reader : Kind → Reader Control
  | taken => TakenNotice.reader.map .taken
  | restoreRequest => RestoreRequest.reader.map .restoreRequest
  | restoreCompletion => RestoreCompletion.reader.map .restoreCompletion
  | prune => PruneRequest.reader.map .prune

def reader : Reader Control := Reader.tagged "type" (Reader.variant Kind.tags) Kind.reader

end Control

end Rollback
