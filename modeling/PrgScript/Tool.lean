import PrgScript.Host.Basic

/-!
# External tools

A tool is another program that is run on one file, such as a compiler of help files.
-/

namespace PrgScript

inductive ToolError where
  /-- The file cannot be used. -/
  | input (file : Text) (e : FileError)
  /-- The tool is not installed. -/
  | missing (tool reason : Text)
  | failed (tool file reason : Text)

def ToolError.message : ToolError → Text
  | .input file e => "input " ++ file ++ ": " ++ e.message
  | .missing tool reason => "external tool not found: " ++ tool ++ ": " ++ reason
  | .failed tool file reason => tool ++ " " ++ file ++ ": " ++ reason

structure ToolResult where
  tool : Text
  arguments : List Text
  printed : Text := []
  nanoseconds : Int := 0
  error : Option ToolError := none

/-- A program that is run on files, in a directory unless that is empty. -/
structure Tool where
  name : Text := "doxygen"
  directory : Text := []

namespace Tool

variable {m : Type → Type} [Monad m] [Host m]

def run (tool : Tool) (file : Text) : m ToolResult := do
  let result : ToolResult := { tool := tool.name, arguments := [file] }
  match ← Files.inspect file with
  | .error e => return { result with error := some (.input file e) }
  | .ok _ =>
    let (outcome, nanoseconds) ← Clock.timed fun _ =>
      Host.runProgram tool.name [file] tool.directory
    match outcome with
    | .missing reason => return { result with error := some (.missing tool.name reason) }
    | .refused reason =>
      return { result with nanoseconds, error := some (.failed tool.name file reason) }
    | .ended printed 0 => return { result with nanoseconds, printed }
    | .ended printed status =>
      let reason := "exit status " ++ Text.ofNat status
      return { result with nanoseconds, printed, error := some (.failed tool.name file reason) }

end Tool

end PrgScript
