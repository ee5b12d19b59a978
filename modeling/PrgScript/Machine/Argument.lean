import PrgScript.Machine.Value
import PrgScript.Number.Reading
import PrgScript.Text.Case

/-!
# Arguments from the command line

The words of a command line become values: logical words between dots, numbers, and
otherwise strings.
-/

namespace PrgScript.Value

/-- The value of a word from the command line. -/
def ofArgument (word : Text) : Value :=
  let key := Text.upper word
  if key = ".T." || key = ".Y." then .logical true
  else if key = ".F." || key = ".N." then .logical false
  else
    match Number.read word with
    | .ok x => .number x
    | .error _ => .string word

end PrgScript.Value
