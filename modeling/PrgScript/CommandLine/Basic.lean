import PrgScript.CommandLine.Help
import PrgScript.CommandLine.Job

/-!
# The command line

The arguments are read, the command they name is prepared and does its job. What comes
first wins: flags that cannot be read, a request for help or the version, arguments that
the command does not take, settings that cannot be used, flags that exclude each other.
-/

namespace PrgScript.CommandLine

/-- The message for flags that exclude each other, if more than one is given. -/
def exclusionFault? (a : Arguments) : Option Text :=
  let given := (exclusiveNames.filter a.isGiven).mergeSort fun s t => !Text.less t s
  if given.length ≤ 1 then none
  else
    some ("if any flags in the group [" ++ Text.join " " exclusiveNames ++
      "] are set none of the others can be; [" ++ Text.join " " given ++ "] were all set")

variable {m : Type → Type} [Monad m] [Host m]

/-- The job without a command: one of the flags tells what to do with a file, else scripts are
run. -/
def rootJob (inv : Invocation m) : CommandM m Unit := do
  let a := inv.arguments
  if let some fault := exclusionFault? a then fail fault
  match exclusiveNames.find? fun name => a.isGiven name && a.text name == [] with
  | some name => fail ("--" ++ name ++ " needs a file")
  | none =>
    let withView := a.switch "gui"
    if a.text "dbase" ≠ [] then inv.compile (a.text "dbase") []
    else if a.text "pascal" ≠ [] then inv.tokenize (a.text "pascal") "pascal" "pretty"
    else if a.text "doxygen" ≠ [] then inv.compileHelp (a.text "doxygen")
    else if a.text "exec" ≠ [] then inv.run [a.text "exec"] [] withView
    else if a.others ≠ [] then inv.run a.others [] withView
    else if withView then fail "--gui needs a script (--exec file or positional arguments)"
    else print Command.root.helpText

/-- The text given to a flag, or what it is without the flag. -/
def textOr (a : Arguments) (name initial : Text) : Text :=
  if a.isGiven name then a.text name else initial

/-- The command that help is asked about. -/
def helpTopic (words : List Text) : Command :=
  ((words.head?.bind fun word => Command.named.find? (·.name == word))).getD .root

def job (inv : Invocation m) (c : Command) : CommandM m Unit :=
  let a := inv.arguments
  match c, a.others with
  | .tokenize, path :: _ =>
    inv.tokenize path (textOr a "dialect" "dbase") (textOr a "format" "pretty")
  | .compile, path :: _ => inv.compile path (a.text "output")
  | .run, path :: args => inv.run [path] (args.map Value.ofArgument) (a.switch "gui")
  | .check, paths => inv.check paths (textOr a "format" "pretty")
  | .clean, _ => inv.clean
  | .version, _ => inv.showVersion (textOr a "format" "pretty")
  | .help, words => print (helpTopic words).helpText
  | _, _ => rootJob inv

/-- Does what the arguments ask for. A loop of a script may go on for at most so many rounds. -/
def execute (rounds : Nat) (argv : List Text) : CommandM m Unit := do
  let (c, rest) := findCommand argv
  let a ← require FlagError.message (Arguments.read c.flags rest)
  if a.switch "help" ∨ c = .completion then print c.helpText
  else if a.switch "version" then print ("xbase version " ++ ({} : Version).number ++ "\n")
  else
    if let some fault := c.arityFault? a.others then fail fault
    withInvocation rounds a fun inv => job inv c

end PrgScript.CommandLine
