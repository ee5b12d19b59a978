import PrgScript.CommandLine.Command

/-!
# Help texts

The help on a command: what it does, how it is called, and its flags in columns.
-/

namespace PrgScript.CommandLine

namespace Flag

def synopsis (f : Flag) : Text :=
  let letter : Text := match f.letter with
    | some letter => "  -" ++ [letter] ++ ", --"
    | none => "      --"
  letter ++ f.name ++
    match f.kind with
    | .text => " string"
    | .number => " int"
    | .switch => ""

/-- What a flag is for, with the value it has unless given. -/
def description (f : Flag) : Text :=
  let initial := if f.kind = .text then Text.quote f.initial else f.initial
  f.usage ++ Text.onlyIf (f.initial ≠ []) (" (default " ++ initial ++ ")")

end Flag

def flagTable (flags : List Flag) : Text :=
  let sorted := flags.mergeSort fun f g => !Text.less g.name f.name
  let width := (sorted.map (·.synopsis.length)).foldl max 0
  sorted.flatMap fun f => Text.padRight (width + 3) f.synopsis ++ f.description ++ "\n"

def commandTable : Text :=
  Command.named.flatMap fun c => "  " ++ Text.padRight 11 c.name ++ " " ++ c.summary ++ "\n"

namespace Command

def about : Command → Text
  | .root =>
    "xbase translates dBase-style scripts into an executable program, caches the\n" ++
      "result and runs it. Positional scripts are run like --exec."
  | .tokenize =>
    "Tokenize scans a file in the chosen dialect and prints its tokens; comments never appear."
  | c => c.summary

def helpText (c : Command) : Text :=
  c.about ++ "\n\nUsage:\n  " ++ c.path ++ " " ++ c.synopsis ++ "\n" ++
    if c = .root then
      "  xbase [command]\n\nAvailable Commands:\n" ++ commandTable ++ "\nFlags:\n" ++
        flagTable c.flags ++
        "\nUse \"xbase [command] --help\" for more information about a command.\n"
    else
      "\nFlags:\n" ++ flagTable (c.ownFlags ++ c.tellingFlags) ++ "\nGlobal Flags:\n" ++
        flagTable commonFlags

end Command

end PrgScript.CommandLine
