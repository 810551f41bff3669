import Rollback.Json.Reader

/-!
# Arguments

The arguments name one command and its file. Options may stand in any order, a value may be attached
to its option or follow it, and behind `--` everything is a file. The first argument that is wrong
decides, unless help or the version was asked for in front of it.
-/

namespace Rollback.CommandLine

/-- What can be done with a scenario. -/
inductive Verb where
  | validate
  | compute
  | prunable
  deriving DecidableEq, Repr

def Verb.names : List (String × Verb) :=
  [("validate", .validate), ("compute", .compute), ("prunable", .prunable)]

inductive Topic where
  | program
  | verb (v : Verb)
  | help
  deriving DecidableEq, Repr

inductive Command where
  | validate (file : String)
  | compute (file : String) (failed : List String) (reuse : Bool)
  | prunable (file : String)
  deriving DecidableEq, Repr

def Command.file : Command → String
  | validate file | compute file _ _ | prunable file => file

/-- What the arguments ask for. -/
inductive Request where
  | run (c : Command)
  | help (topic : Topic)
  | version
  deriving DecidableEq, Repr

/-- What is wrong with the arguments. -/
inductive Misuse where
  | noCommand
  | noFile
  | unexpected (arg : String)
  | noValue (option : String)
  | unneededValue (option : String)
  | repeated (option : String)
  deriving DecidableEq, Repr

def Misuse.message : Misuse → String
  | noCommand => "a command is required"
  | noFile => "a scenario file is required"
  | unexpected arg => "unexpected argument " ++ Fault.ticked arg
  | noValue option => "a value is required for " ++ Fault.ticked option
  | unneededValue option => Fault.ticked option ++ " takes no value"
  | repeated option => Fault.ticked option ++ " cannot be used more than once"

/-! ## Behind a verb -/

/-- What was given to a verb so far. -/
structure Given where
  file : Option String := none
  failed : List String := []
  reuse : Bool := true

namespace Given

def command (verb : Verb) (given : Given) : Except Misuse Request :=
  match given.file with
  | none => .error .noFile
  | some file => .ok (.run (match verb with
    | .validate => .validate file
    | .compute => .compute file given.failed given.reuse
    | .prunable => .prunable file))

/-- A file; there is one, and it has a name. -/
def setFile (given : Given) (file : String) : Except Misuse Given :=
  if given.file.isSome then .error (.unexpected file)
  else if file.isEmpty then .error .noFile
  else .ok { given with file := some file }

def addFailed (given : Given) (name : String) : Given :=
  { given with failed := given.failed ++ [name] }

end Given

inductive Flag where
  | help
  | failed
  | noReuse
  deriving DecidableEq, Repr

/-- An argument by its form. -/
inductive Form where
  | long (name : String) (attached : Option String)
  | short (c : Char) (rest : List Char)
  | plain
  deriving DecidableEq, Repr

/-- The name of a long option, and the value that is attached to it. -/
def splitLong (option : List Char) : Form :=
  let name := option.takeWhile (· ≠ '=')
  let attached := option.drop name.length
  .long (String.ofList name)
    (if attached.isEmpty then none else some (String.ofList attached.tail))

def Form.of (arg : String) : Form :=
  match arg.toList with
  | '-' :: '-' :: option => splitLong option
  | '-' :: c :: rest => short c rest
  | _ => plain

/-- The value that is attached to a short option, with an equals sign or without. -/
def attachedShort? : List Char → Option String
  | [] => none
  | '=' :: value => some (String.ofList value)
  | value => some (String.ofList value)

/-- The option that an argument is, with its value; nothing if it is no option. -/
def Flag.ofArgument (verb : Verb) (arg : String) : Except Misuse (Option (Flag × Option String)) :=
  let compute := verb = .compute
  match Form.of arg with
  | .plain => .ok none
  | .short c rest =>
    if c = 'h' then .ok (some (help, none))
    else if compute && c = 'f' then .ok (some (failed, attachedShort? rest))
    else .error (.unexpected arg)
  | .long name attached =>
    if name = "help" then .ok (some (help, attached))
    else if compute && name = "failed" then .ok (some (failed, attached))
    else if compute && name = "no-reuse" then .ok (some (noReuse, attached))
    else .error (.unexpected arg)

/-- Whether an argument can be the value of the option in front of it. -/
def isValue (arg : String) : Bool := arg = "-" || arg.toList.head? ≠ some '-'

/-- The request of the arguments behind a verb. -/
def ofVerb (verb : Verb) (given : Given) : List String → Except Misuse Request
  | [] => given.command verb
  | arg :: rest =>
    if arg = "--" then do (← rest.foldlM Given.setFile given).command verb
    else
      match Flag.ofArgument verb arg with
      | .error e => .error e
      | .ok none => do ofVerb verb (← given.setFile arg) rest
      | .ok (some (.failed, some name)) => ofVerb verb (given.addFailed name) rest
      | .ok (some (.failed, none)) =>
        match rest with
        | [] => .error (.noValue arg)
        | name :: rest =>
          if isValue name then ofVerb verb (given.addFailed name) rest else .error (.noValue arg)
      | .ok (some (_, some _)) => .error (.unneededValue arg)
      | .ok (some (.help, none)) => .ok (.help (.verb verb))
      | .ok (some (.noReuse, none)) =>
        if given.reuse then ofVerb verb { given with reuse := false } rest
        else .error (.repeated arg)

/-! ## In front of a verb -/

def helpTopic : List String → Except Misuse Request
  | [] => .ok (.help .program)
  | ["help"] => .ok (.help .help)
  | [name] =>
    match Verb.names.lookup name with
    | some verb => .ok (.help (.verb verb))
    | none => .error (.unexpected name)
  | _ :: name :: _ => .error (.unexpected name)

/-- Short options in one argument: whether the program is verbose behind them, and the request that
they make. -/
def shorts (arg : String) (verbose : Bool) : List Char → Except Misuse (Bool × Option Request)
  | [] => .ok (verbose, none)
  | c :: rest =>
    if c = 'h' then .ok (verbose, some (.help .program))
    else if c = 'V' then .ok (verbose, some .version)
    else if c ≠ 'v' then .error (.unexpected arg)
    else if verbose then .error (.repeated "-v")
    else shorts arg true rest

/-- The request of all arguments. To be verbose changes no answer, but it can be asked for once
only. -/
def ofArguments (verbose : Bool) : List String → Except Misuse Request
  | [] => .error .noCommand
  | arg :: rest =>
    match Verb.names.lookup arg with
    | some verb => ofVerb verb {} rest
    | none =>
      match Form.of arg with
      | .plain => if arg = "help" then helpTopic rest else .error (.unexpected arg)
      | .short c cs =>
        match shorts arg verbose (c :: cs) with
        | .error e => .error e
        | .ok (_, some request) => .ok request
        | .ok (verbose, none) => ofArguments verbose rest
      | .long name (some _) =>
        if name ∈ ["help", "version", "verbose"] then .error (.unneededValue arg)
        else .error (.unexpected arg)
      | .long name none =>
        if name = "help" then .ok (.help .program)
        else if name = "version" then .ok .version
        else if name ≠ "verbose" then .error (.unexpected arg)
        else if verbose then .error (.repeated arg)
        else ofArguments true rest

def parse (args : List String) : Except Misuse Request := ofArguments false args

end Rollback.CommandLine
