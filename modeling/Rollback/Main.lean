import Rollback.CommandLine.Report

/-! The program `dfrecover`: reads the file that its arguments name and prints the report. -/

namespace Rollback.CommandLine

/-- The text of a file, or why it cannot be read. -/
def readScenario (path : String) : IO (Except String String) := do
  match ← (IO.FS.readFile path).toBaseIO with
  | .ok text => return .ok text
  | .error (.noFileOrDirectory ..) => return .error FileFault.noSuchFile.message
  | .error (.inappropriateType _ 20 _) => return .error FileFault.notDirectory.message
  | .error (.inappropriateType ..) => return .error FileFault.isDirectory.message
  | .error (.invalidArgument _ 36 _) => return .error FileFault.nameTooLong.message
  | .error e => return .error (toString e)

end Rollback.CommandLine

open Rollback

def main (args : List String) : IO UInt32 := do
  let output ← CommandLine.report CommandLine.readScenario args
  IO.print output.stdout
  IO.eprint output.stderr
  return output.exitCode
