import PrgScript.CommandLine.Flag

/-!
# Commands

The tool has a command for each of its jobs; without one it runs scripts. A command is
found among the arguments by its name, wherever that stands, as long as it is not the
value of a flag.
-/

namespace PrgScript.CommandLine

/-- A job of the tool; `root` is the one without a name. -/
inductive Command where
  | root | tokenize | compile | run | check | clean | version | help | completion
deriving DecidableEq, Repr

inductive Arity where
  | any
  | exactly (n : Nat)
  | atLeast (n : Nat)

def commonFlags : List Flag := [
  { name := "color", initial := "auto", usage := "colorize output (auto|on|off)" },
  { name := "quiet", kind := .switch, usage := "suppress non-essential output" },
  { name := "timings", kind := .switch, usage := "show timing information" },
  { name := "max-diagnostics", kind := .number, initial := "100"
    usage := "maximum number of diagnostics to show" },
  { name := "trace-level", initial := "off"
    usage := "trace level (off|error|phase|detail|debug)" },
  { name := "trace-format", initial := "text", usage := "trace format (text|ndjson)" },
  { name := "trace", usage := "trace output file (default stderr)" },
  { name := "cache-dir", usage := "artifact cache directory" },
  { name := "config", usage := "path to xbase.toml (default: search upwards)" },
  { name := "cpuprofile", usage := "write CPU profile to file" },
  { name := "memprofile", usage := "write heap profile to file on exit" },
  { name := "runtime-trace", usage := "write runtime trace to file" }]

def viewFlag : Flag :=
  { name := "gui", kind := .switch, usage := "show a terminal progress view while running" }

/-- The flags of the tool of which only one can be given. -/
def exclusiveNames : List Text := ["dbase", "pascal", "doxygen", "exec"]

namespace Command

def named : List Command :=
  [.check, .clean, .completion, .help, .run, .tokenize, .compile, .version]

def name : Command → Text
  | .root => "xbase"
  | .tokenize => "tokenize"
  | .compile => "translate"
  | .run => "run"
  | .check => "check"
  | .clean => "clean"
  | .version => "version"
  | .help => "help"
  | .completion => "completion"

/-- The words that lead to a command. -/
def path (c : Command) : Text := if c = .root then "xbase" else "xbase " ++ c.name

def summary : Command → Text
  | .root => "xBase script translator and runner"
  | .tokenize => "Print the token stream of a script"
  | .compile => "Translate a dBase script and print the generated listing"
  | .run => "Run a script, reusing its cached translation when the source is unchanged"
  | .check => "Translate several scripts in parallel and report diagnostics"
  | .clean => "Remove the artifact cache"
  | .version => "Show build information"
  | .help => "Help about any command"
  | .completion => "Generate the autocompletion script for the specified shell"

/-- The arguments of a command as its help shows them. -/
def synopsis : Command → Text
  | .root => "[flags] [script.prg ...]"
  | .tokenize => "[flags] file"
  | .compile => "[flags] file.prg"
  | .run => "[flags] file.prg [-- args...]"
  | .check => "[flags] file.prg..."
  | .clean | .version | .completion => "[flags]"
  | .help => "[command] [flags]"

def ownFlags : Command → List Flag
  | .root => [
    { name := "dbase", usage := "translate a dBase script and print the listing" },
    { name := "pascal", usage := "tokenize a Pascal-style file" },
    { name := "doxygen", usage := "run the external help compiler on a file" },
    { name := "exec", usage := "translate (or reuse the cached artifact) and run a script" },
    viewFlag]
  | .tokenize => [
    { name := "dialect", initial := "dbase", usage := "source dialect (dbase|pascal|lisp)" },
    { name := "format", initial := "pretty", usage := "output format (pretty|json)" }]
  | .compile => [
    { name := "output", letter := some 111
      usage := "write the listing to a file instead of stdout" }]
  | .run => [viewFlag]
  | .check => [
    { name := "jobs", letter := some 106, kind := .number
      usage := "scripts to work on at a time (0 = one per processor)" },
    { name := "format", initial := "pretty", usage := "diagnostics format (pretty|json)" }]
  | .version => [{ name := "format", initial := "pretty", usage := "output format (pretty|json)" }]
  | .clean | .help | .completion => []

/-- The flags that tell about a command instead of running it. -/
def tellingFlags (c : Command) : List Flag :=
  { name := "help", letter := some 104, kind := .switch, usage := "help for " ++ c.name : Flag } ::
    if c = .root then
      [{ name := "version", letter := some 118, kind := .switch, usage := "version for xbase" }]
    else []

def flags (c : Command) : List Flag := c.ownFlags ++ commonFlags ++ c.tellingFlags

def arity : Command → Arity
  | .root | .help => .any
  | .tokenize | .compile => .exactly 1
  | .run | .check => .atLeast 1
  | .clean | .version | .completion => .exactly 0

def arityFault? (c : Command) (arguments : List Text) : Option Text :=
  let count := arguments.length
  match c.arity, arguments with
  | .any, _ => none
  | .exactly 0, first :: _ =>
    some ("unknown command " ++ Text.quote first ++ " for " ++ Text.quote c.path)
  | .exactly n, _ =>
    if count = n then none
    else some ("accepts " ++ Text.ofNat n ++ " arg(s), received " ++ Text.ofNat count)
  | .atLeast n, _ =>
    if n ≤ count then none
    else
      some ("requires at least " ++ Text.ofNat n ++ " arg(s), only received " ++ Text.ofNat count)

end Command

/-- Whether an argument is a flag whose value is the next argument, as far as the given flags tell:
one that is not known is taken for such a flag. -/
def takesNext (flags : List Flag) : Text → Bool
  | 45 :: 45 :: body =>
    !body.contains 61 && !(flags.any fun f => f.name == body && f.kind == .switch)
  | [45, letter] =>
    letter != 61 && !(flags.any fun f => f.letter == some letter && f.kind == .switch)
  | _ => false

/-- The first argument that is neither a flag nor the value of one. -/
def firstWord? (flags : List Flag) : List Text → Option Text
  | [] => none
  | [45, 45] :: _ => none
  | argument :: rest =>
    if takesNext flags argument then
      match rest with
      | _ :: next :: rest => firstWord? flags (next :: rest)
      | _ => none
    else if argument = [] ∨ argument.head? = some 45 then firstWord? flags rest
    else some argument

/-- The arguments without the first one that is a word and no value of a flag. -/
def dropWord (flags : List Flag) (word : Text) : List Text → List Text
  | [] => []
  | [45, 45] :: rest => [45, 45] :: rest
  | argument :: rest =>
    if takesNext flags argument then
      match rest with
      | value :: rest => argument :: value :: dropWord flags word rest
      | [] => [argument]
    else if argument = word then rest
    else argument :: dropWord flags word rest

/-- The command that arguments name, and the arguments without its name. -/
def findCommand (arguments : List Text) : Command × List Text :=
  let flags := Command.root.ownFlags ++ commonFlags
  match firstWord? flags arguments with
  | none => (.root, arguments)
  | some word =>
    match Command.named.find? (·.name == word) with
    | some c => (c, dropWord flags word arguments)
    | none => (.root, arguments)

end PrgScript.CommandLine
