import PrgScript.Text.Basic

/-!
# Failed operations on files

An operation on files fails for one of a few reasons. Its message names the operation,
the paths it was given and the reason.
-/

namespace PrgScript

inductive FileFault where
  | notFound
  | notDirectory
  | isDirectory
  | alreadyExists
  | notEmpty
  | nameTooLong
  | invalidArgument
  | denied
  | other (message : Text)
deriving DecidableEq, Repr

def FileFault.message : FileFault → Text
  | .notFound => "no such file or directory"
  | .notDirectory => "not a directory"
  | .isDirectory => "is a directory"
  | .alreadyExists => "file exists"
  | .notEmpty => "directory not empty"
  | .nameTooLong => "file name too long"
  | .invalidArgument => "invalid argument"
  | .denied => "permission denied"
  | .other message => message

inductive FileOperation where
  | opening | reading | writing | inspecting | making | renaming | removing | entering
deriving DecidableEq, Repr

def FileOperation.name : FileOperation → String
  | .opening => "open"
  | .reading => "read"
  | .writing => "write"
  | .inspecting => "stat"
  | .making => "mkdir"
  | .renaming => "rename"
  | .removing => "remove"
  | .entering => "chdir"

/-- A failed operation on one or more paths. -/
structure FileError where
  operation : FileOperation
  paths : List Text
  fault : FileFault
deriving DecidableEq, Repr

def FileError.message (e : FileError) : Text :=
  e.operation.name ++ " " ++ Text.join " " e.paths ++ ": " ++ e.fault.message

end PrgScript
