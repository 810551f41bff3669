import Rollback.Settings.Basic

/-!
# Settings from environment variables

Each setting has a variable whose name is a common prefix and a name of its own. A variable that is
not set leaves the default in place; the first variable that cannot be read is reported.
-/

namespace Rollback

/-- The variables that are set, by name; nothing where the bytes of one are no text. -/
abbrev Environment := NameMap (Option String)

namespace Environment

def text? (env : Environment) (key : String) : Outcome (Option String) :=
  match env[key]? with
  | none => .ok none
  | some (some s) => .ok (some s)
  | some none => .error (.settings (.notText key))

def number? (env : Environment) (key : String) : Outcome (Option Nat) := do
  match ← env.text? key with
  | none => return none
  | some s =>
    match Text.word s.toList with
    | .ok n => return some n
    | .error cause => .error (.settings (.noNumber key cause))

end Environment

namespace Settings

def defaultPrefix : String := "DFCP_"

/-- The settings in the variables with this prefix. -/
def ofEnvironment (env : Environment) (before : String := defaultPrefix) : Outcome Settings := do
  let name ← env.text? (before ++ "INSTANCE_NAME")
  let directory ← env.text? (before ++ "STORAGE_DIR")
  let buffer ← env.number? (before ++ "COMMAND_BUFFER")
  let retained ← env.number? (before ++ "RETAINED_CHECKPOINTS")
  let s : Settings := {}
  return {
    name := name.getD s.name
    backend := (directory.map .directory).getD s.backend
    buffer := buffer.getD s.buffer
    retained := retained.getD s.retained }

/-- The settings in the variables with this prefix, if they can be used. -/
def ofEnvironmentChecked (env : Environment) (before : String := defaultPrefix) :
    Outcome Settings := do
  let s ← ofEnvironment env before
  s.validate
  return s

end Settings

end Rollback
