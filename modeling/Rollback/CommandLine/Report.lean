import Rollback.CommandLine.Help
import Rollback.Scenario.Analysis

/-!
# Reports

A command answers on the standard output. If it fails, the standard output stays empty, and the
failure is told on the standard error with its cause.
-/

namespace Rollback.CommandLine

/-- What the program leaves behind. -/
structure Output where
  exitCode : UInt32
  stdout : String
  stderr : String
  deriving DecidableEq, Repr

def unlines (lines : List String) : String := String.join (lines.map (· ++ "\n"))

def success (lines : List String) : Output := ⟨0, unlines lines, ""⟩

/-! ## Failures -/

def indented (text : String) : String :=
  "\n".intercalate ((text.splitOn "\n").map ("    " ++ ·))

def failure (message : String) (cause : Option String) : Output where
  exitCode := 1
  stdout := ""
  stderr := unlines ["Error: " ++ message ++ match cause with
    | some text => "\n\nCaused by:\n" ++ indented text
    | none => ""]

def failed (f : Scenario.Failure) : Output := failure f.message (f.cause?.map Error.message)

def misused (m : Misuse) : Output :=
  ⟨2, "", unlines ["error: " ++ m.message, "", "For more information, try '--help'."]⟩

/-! ## Answers -/

def number (n : Nat) : String := String.ofList (Text.decimal n)

def summaryLines (y : Scenario.Summary) : List String :=
  ("  - " ++ y.name ++ ": " ++ number y.checkpoints ++ " checkpoints, latest " ++
      y.latest.toString) ::
    if y.sources.isEmpty then [] else ["    upstream: " ++ ", ".intercalate y.sources]

def validLines (s : Scenario) (summaries : List Scenario.Summary) : List String :=
  ["✓ Scenario is valid",
    "  Checkpoints: " ++ number s.checkpoints.length,
    "",
    "Instances (" ++ number summaries.length ++ "):"] ++
  summaries.flatMap summaryLines

/-- What can be deleted, beside the line that it is older than. -/
def prunableJson (line : Line) (headers : List Header) : Json := .object [
  ("prunable", .array (headers.map fun h =>
    .object [("id", .string h.id.toString), ("instance_name", .string h.owner)])),
  ("recovery_line", line.json)]

def Command.answer (c : Command) (s : Scenario) : Except Scenario.Failure (List String) :=
  match c with
  | .validate _ => do return validLines s (← s.validate)
  | .compute _ names reuse => do return [(← s.compute names reuse).json.render .indented]
  | .prunable _ => do
    let (line, headers) ← s.prunable
    return [(prunableJson line headers).render .indented]

/-- Carries out a command, given the text of its file or the reason why there is none. -/
def Command.run (c : Command) (content : Except String String) : Output :=
  match content with
  | .error e => CommandLine.failure ("Failed to read scenario file " ++ c.file) (some e)
  | .ok text =>
    match Scenario.ofText (.ofPath c.file) text with
    | .error e => CommandLine.failure ("Failed to parse scenario file " ++ c.file) (some e.message)
    | .ok s =>
      match c.answer s with
      | .ok lines => success lines
      | .error f => failed f

def versionLine : String := "dfrecover 0.1.0"

/-- What the program does with its arguments, in an environment where it can read files. -/
def report {m : Type → Type} [Monad m] (read : String → m (Except String String))
    (args : List String) : m Output := do
  match parse args with
  | .error e => return misused e
  | .ok .version => return success [versionLine]
  | .ok (.help topic) => return success topic.lines
  | .ok (.run c) => return c.run (← read c.file)

end Rollback.CommandLine
