import PrgScript.Files.Basic

/-!
# The surroundings of the tool

What the tool needs beyond files: its environment, places to write to, and other
programs that it can start.
-/

namespace PrgScript

/-- Where the tool writes. Diagnostics usually go to the error stream, but may be led elsewhere. -/
inductive Channel where
  | output
  | diagnostics
  | errorStream
deriving DecidableEq, Repr

/-- What has become of another program that was to be started. -/
inductive ProgramRun where
  /-- There is no such program. -/
  | missing (reason : Text)
  /-- The program is there and could not be started. -/
  | refused (reason : Text)
  /-- The program ran, printed something and ended with a status. -/
  | ended (printed : Text) (status : Nat)

/-- What the tool needs of the system it runs on. -/
class Host (m : Type → Type) extends Files m, Clock m where
  /-- The absolute path of the working directory. -/
  workingDirectory : m Text
  /-- The value of an environment variable. -/
  environment : Text → m (Option Text)
  /-- Writes a text. -/
  write : Channel → Text → m Unit
  /-- Whether what is written is shown on a terminal. -/
  isTerminal : Channel → m Bool
  /-- Runs another program in a directory, or in the working directory if that is empty. -/
  runProgram (program : Text) (arguments : List Text) (directory : Text) : m ProgramRun

end PrgScript
