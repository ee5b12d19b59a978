import PrgScript.Files.Error

/-!
# Access to files

What the tool needs of a file system, stated for any monad that can provide it. The
tool itself is written against these operations only; a disk in memory provides them
for reasoning and testing, the operating system for use.
-/

namespace PrgScript

/-- What a path leads to. -/
inductive NodeKind where
  | file
  | directory
deriving DecidableEq, Repr

/-- The operations on files that a monad provides. Every one of them may fail. -/
class Files (m : Type → Type) where
  /-- The content of a file. -/
  readBytes : Text → m (Except FileError Text)
  /-- Gives a file a content. The file is made unless it is there; its directory must be. -/
  writeBytes (path bytes : Text) : m (Except FileError Unit)
  /-- Makes a file, or empties the one that is there, and keeps it open. What is returned writes to
  it, each time from where the last writing ended; the file is the same one wherever it is moved
  to, and once it is removed or replaced nothing more is seen of it. -/
  create : Text → m (Except FileError (Text → m Unit))
  /-- What a path leads to. -/
  inspect : Text → m (Except FileError NodeKind)
  /-- Makes a directory and those above it, as far as they are missing. -/
  makeDirectories : Text → m (Except FileError Unit)
  /-- Makes a new file with a content in a directory, under a name that was free; returns its
  path. -/
  writeFresh (directory bytes : Text) : m (Except FileError Text)
  /-- Gives a file or directory a new path. A file at that path is replaced. -/
  rename (old new : Text) : m (Except FileError Unit)
  /-- Removes a file or an empty directory. -/
  remove : Text → m (Except FileError Unit)
  /-- Removes a file or a directory with everything in it; one that is missing is no failure. -/
  removeAll : Text → m (Except FileError Unit)

/-- The passing of time, as far as a monad can observe it. -/
class Clock (m : Type → Type) where
  /-- The result of some work and how many nanoseconds it took. -/
  timed {α : Type} (work : Unit → m α) : m (α × Int)
  /-- The microseconds since the start of the year 1970. -/
  now : m Int

/-- In a pure computation time stands still. -/
instance {σ : Type} : Clock (StateM σ) where
  timed work := do return (← work (), 0)
  now := return 0

end PrgScript
