import PrgScript.Text.Style

/-!
# The version of the tool

The version number with optional facts about the build.
-/

namespace PrgScript

/-- The version of the tool and what is known about its build. -/
structure Version where
  number : Text := "0.3.0-dev"
  commit : Text := []
  date : Text := []

namespace Version

/-- The styles of the first parts of a version number. -/
def partStyles : List (List Text.Attribute) := [[.yellow, .bold], [.green, .bold], [.blue, .bold]]

/-- Parts painted in turn, as far as there are styles. -/
def paintParts : List Text → List (List Text.Attribute) → List Text
  | part :: parts, style :: styles => Text.paint true style part :: paintParts parts styles
  | parts, _ => parts

/-- The version number with its parts in colours; what follows the first hyphen stays plain. -/
def colored (v : Version) : Text :=
  let painted (core : Text) : Text := Text.join "." (paintParts (Text.splitOn 46 core) partStyles)
  match Text.cut? 45 v.number with
  | some (core, suffix) => painted core ++ "-" ++ suffix
  | none => painted v.number

def info (v : Version) (inColor : Bool) : Text :=
  "xbase " ++ (if inColor then v.colored else v.number) ++ "\n" ++
    Text.onlyIf (v.commit ≠ []) ("commit: " ++ v.commit ++ "\n") ++
    Text.onlyIf (v.date ≠ []) ("built:  " ++ v.date ++ "\n")

end Version

end PrgScript
