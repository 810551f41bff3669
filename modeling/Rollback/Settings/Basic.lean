import Rollback.Error
import Rollback.Settings.Backend
import Rollback.Text.Numeral

/-!
# Settings of an instance

The name of the instance, where its checkpoints are kept, how many commands may wait for it and how
many of its own checkpoints it remembers. Settings can be layered: what differs from the defaults
covers what is below.
-/

namespace Rollback

structure Settings where
  name : String := ""
  backend : Backend := .memory
  /-- How many commands may wait. -/
  buffer : Nat := 64
  /-- How many of its own checkpoints the instance remembers. -/
  retained : Nat := 16
  deriving DecidableEq, Repr

namespace Settings

instance : Inhabited Settings := ⟨{}⟩

/-- Names the first setting that cannot be used: the name must have a character that is not white
space, a restored checkpoint and the one before it must both be remembered. -/
def validate (s : Settings) : Outcome Unit :=
  if (Text.trim s.name.toList).isEmpty then .error (.settings .noName)
  else if s.buffer = 0 then .error (.settings .noBuffer)
  else if s.retained < 2 then .error (.settings .tooFewRetained)
  else if s.backend = .directory "" then .error (.settings .noDirectory)
  else .ok ()

/-- The upper one of two values, if it was set to anything but the default. -/
def cover {α : Type} [DecidableEq α] (default lower upper : α) : α :=
  if upper = default then lower else upper

/-- Every setting of the upper layer that differs from its default covers the one below. -/
def layer (lower upper : Settings) : Settings where
  name := cover "" lower.name upper.name
  backend := cover .memory lower.backend upper.backend
  buffer := cover ({} : Settings).buffer lower.buffer upper.buffer
  retained := cover ({} : Settings).retained lower.retained upper.retained

/-! ## As a document -/

def json (s : Settings) : Json := .object [
  ("instance_name", .string s.name),
  ("storage", s.backend.json),
  ("command_buffer", .integer s.buffer),
  ("retained_checkpoints", .integer s.retained)]

inductive Field where
  | name
  | backend
  | buffer
  | retained
  deriving DecidableEq

@[reducible] def Field.Content : Field → Type
  | name => String
  | backend => Backend
  | buffer | retained => Nat

def shape : Shape where
  Field := Field
  fields := [.name, .backend, .buffer, .retained]
  complete f := by cases f <;> simp
  name
    | .name => "instance_name"
    | .backend => "storage"
    | .buffer => "command_buffer"
    | .retained => "retained_checkpoints"
  Content := Field.Content
  read
    | .name => Reader.text
    | .backend => Backend.reader
    | .buffer => Reader.natural
    | .retained => Reader.natural
  fallback
    | .backend => some .memory
    | .name | .buffer | .retained => none

def reader : Reader Settings := shape.reader.map fun r =>
  ⟨r Field.name, r Field.backend, r Field.buffer, r Field.retained⟩

end Settings

end Rollback
