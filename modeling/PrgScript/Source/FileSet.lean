import PrgScript.Source.File

/-!
# File sets

The scripts of one run, numbered in the order they were added. Adding a path
again keeps the earlier version under its old number.
-/

namespace PrgScript

/-- The scripts of one run, in the order they were added. -/
structure FileSet where
  files : Array File := #[]

namespace FileSet

/-- The shortest form of a path, under which a file is kept. -/
def normalPath (path : Text) : Text := Path.clean path

def add (set : FileSet) (path content : Text) (flags : UInt8) : FileSet × Nat :=
  let id := set.files.size
  (⟨set.files.push ⟨id, normalPath path, content, flags⟩⟩, id)

/-- Adds a script that is not on disk, as it is. -/
def addVirtual (set : FileSet) (name content : Text) : FileSet × Nat :=
  set.add name content File.virtualFlag

def get? (set : FileSet) (id : Nat) : Option File := set.files[id]?

def latest? (set : FileSet) (path : Text) : Option Nat :=
  (set.files.toList.reverse.find? (·.path == normalPath path)).map (·.id)

/-- The lines and columns of the two ends of a span; zeros for an unknown file. -/
def resolve (set : FileSet) (span : Span) : LineCol × LineCol :=
  match set.get? span.file with
  | some file => (file.lineCol span.start, file.lineCol span.stop)
  | none => (⟨0, 0⟩, ⟨0, 0⟩)

end FileSet

/-- The one file of a set made for a script that is not on disk. -/
def File.ofSource (name content : Text) : File :=
  ⟨0, FileSet.normalPath name, content, File.virtualFlag⟩

/-- The one file of a set made for a script read from disk. -/
def File.ofDisk (path bytes : Text) : File :=
  let (content, flags) := File.tidy bytes
  ⟨0, FileSet.normalPath path, content, flags⟩

end PrgScript
