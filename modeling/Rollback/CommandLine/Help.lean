import Rollback.CommandLine.Arguments

/-!
# Help

The texts that describe the program and its commands.
-/

namespace Rollback.CommandLine

def programHelp : List String := [
  "Compute dataflow recovery lines from gathered checkpoint metadata",
  "",
  "Usage: dfrecover [OPTIONS] <COMMAND>",
  "",
  "Commands:",
  "  validate  Check a scenario file and summarize each instance's checkpoints",
  "  compute   Print the recovery line for the failed instances as JSON",
  "  prunable  List checkpoints older than the worst-case recovery line",
  "  help      Print this message or the help of the given subcommand(s)",
  "",
  "Options:",
  "  -v, --verbose  Enable debug logging",
  "  -h, --help     Print help",
  "  -V, --version  Print version"]

def fileHelp : List String := [
  "",
  "Arguments:",
  "  <FILE>  Path to YAML or JSON scenario file",
  "",
  "Options:"]

def verbHelp : Verb → List String
  | .validate => [
      "Check a scenario file and summarize each instance's checkpoints",
      "",
      "Usage: dfrecover validate <FILE>"] ++ fileHelp ++ [
      "  -h, --help  Print help"]
  | .compute => [
      "Print the recovery line for the failed instances as JSON",
      "",
      "Usage: dfrecover compute [OPTIONS] <FILE>"] ++ fileHelp ++ [
      "  -f, --failed <NAME>  Failed instance (repeatable, replaces the file's list)",
      "      --no-reuse       Restore every instance instead of keeping survivors' live state",
      "  -h, --help           Print help"]
  | .prunable => [
      "List checkpoints older than the worst-case recovery line",
      "",
      "Usage: dfrecover prunable <FILE>"] ++ fileHelp ++ [
      "  -h, --help  Print help"]

def helpHelp : List String := [
  "Print this message or the help of the given subcommand(s)",
  "",
  "Usage: dfrecover help [COMMAND]...",
  "",
  "Arguments:",
  "  [COMMAND]...  Print help for the subcommand(s)"]

def Topic.lines : Topic → List String
  | program => programHelp
  | verb v => verbHelp v
  | help => helpHelp

end Rollback.CommandLine
