import PrgScript.Files.Basic
import PrgScript.Source.Path

/-!
# Disks in memory

A disk maps places to files and directories. A place is the list of the names that
lead to it from the root. A path is followed name by name through existing
directories, so that `..` leads back from a directory that must be there.
-/

namespace PrgScript

/-- What stands at a place of a disk. -/
inductive Node where
  | file (bytes : Text)
  | directory
deriving DecidableEq, Repr

def Node.kind : Node → NodeKind
  | .file _ => .file
  | .directory => .directory

/-- The names that lead from the root to a place. -/
abbrev Place := List Text

/-- A file that is kept open: its place, unless it was removed or replaced, and the number of bytes
before the next that is written. -/
structure OpenFile where
  place : Option Place
  offset : Nat := 0
deriving DecidableEq, Repr

/-- A disk: the directory that relative paths start from, what stands at every place but the root,
which is a directory, and the files that were opened, in order. -/
structure Disk where
  workingDirectory : Place := []
  nodes : List (Place × Node) := []
  opened : List OpenFile := []

namespace Disk

def get? (disk : Disk) (place : Place) : Option Node :=
  if place = [] then some .directory else disk.nodes.lookup place

def insert (disk : Disk) (place : Place) (node : Node) : Disk :=
  { disk with nodes := (place, node) :: disk.nodes.filter (·.1 != place) }

/-- The open files when what stands at a place comes to stand elsewhere, or nowhere. -/
def relocate (disk : Disk) (f : Place → Option Place) : List OpenFile :=
  disk.opened.map fun file => { file with place := file.place.bind f }

/-- Removes what stands at a place and below it. -/
def eraseBelow (disk : Disk) (place : Place) : Disk :=
  { disk with
    nodes := disk.nodes.filter fun (p, _) => !place.isPrefixOf p
    opened := disk.relocate fun p => if place.isPrefixOf p then none else some p }

/-- Moves what stands at a place and below it to another place. -/
def move (disk : Disk) (old new : Place) : Disk :=
  let movedTo (p : Place) : Option Place :=
    if old.isPrefixOf p then some (new ++ p.drop old.length) else none
  let moved := disk.nodes.filterMap fun (p, node) => (movedTo p).map (·, node)
  let kept := (disk.eraseBelow old).nodes.filter (·.1 != new)
  { disk with
    nodes := moved ++ kept
    opened := disk.relocate fun p => (movedTo p).or (if p = new then none else some p) }

def namesIn (disk : Disk) (place : Place) : List Text :=
  disk.nodes.filterMap fun (p, _) =>
    if p.dropLast = place then p.getLast? else none

def longestName : Nat := 255

/-- The longest path, plus one. -/
def pathLimit : Nat := 4096

/-- Follows names from a place. The names so far must lead to a directory. -/
def walk (disk : Disk) : Place → List Text → Except FileFault Place
  | place, [] => .ok place
  | place, name :: names =>
    match disk.get? place with
    | none => .error .notFound
    | some (.file _) => .error .notDirectory
    | some .directory =>
      if name = [] ∨ name = "." then disk.walk place names
      else if name = ".." then disk.walk place.dropLast names
      else if longestName < name.length then .error .nameTooLong
      else disk.walk (place ++ [name]) names

/-- The place that a path leads to, whether or not something stands there. -/
def resolve (disk : Disk) (path : Text) : Except FileFault Place :=
  if path.contains 0 then .error .invalidArgument
  else if path = [] then .error .notFound
  else if pathLimit ≤ path.length then .error .nameTooLong
  else
    disk.walk (if Path.isAbsolute path then [] else disk.workingDirectory)
      (Text.splitOn Path.separator path)

/-- The place that a path leads to and what stands there. -/
def find (disk : Disk) (path : Text) : Except FileFault (Place × Node) := do
  let place ← disk.resolve path
  match disk.get? place with
  | some node => return (place, node)
  | none => throw .notFound

def workingPath (disk : Disk) : Text :=
  Path.separator :: Text.join [Path.separator] disk.workingDirectory

/-- The path without the slashes at its end, one that is nothing else apart. -/
def withoutSlashes (path : Text) : Text :=
  let trimmed := Path.trimSlashes path
  if trimmed = [] then path else trimmed

/-- The place of a file that is to be written: not one of a directory, and not one whose path ends
with a slash. -/
def target (disk : Disk) (path : Text) : Except FileFault Place := do
  let place ← disk.resolve (withoutSlashes path)
  if withoutSlashes path ≠ path ∨ disk.get? place = some .directory then throw .isDirectory
  return place

def readBytes (disk : Disk) (path : Text) : Except FileError Text :=
  match disk.find path with
  | .ok (_, .file bytes) => .ok bytes
  | .ok (_, .directory) => .error ⟨.reading, [path], .isDirectory⟩
  | .error fault => .error ⟨.opening, [path], fault⟩

def writeBytes (disk : Disk) (path bytes : Text) : Except FileError Disk :=
  match disk.target path with
  | .ok place => .ok (disk.insert place (.file bytes))
  | .error fault => .error ⟨.opening, [path], fault⟩

/-- The disk after a file is made or emptied and opened, and the number of the open file. -/
def create (disk : Disk) (path : Text) : Except FileError (Nat × Disk) :=
  match disk.target path with
  | .ok place =>
    let disk := disk.insert place (.file [])
    .ok (disk.opened.length, { disk with opened := disk.opened ++ [{ place := some place }] })
  | .error fault => .error ⟨.opening, [path], fault⟩

/-- A content with bytes written over it from an offset on; a gap before them is filled with
zeros. -/
def overwrite (content : Text) (offset : Nat) (bytes : Text) : Text :=
  content.take offset ++ List.replicate (offset - content.length) 0 ++ bytes ++
    content.drop (offset + bytes.length)

def append (disk : Disk) (number : Nat) (bytes : Text) : Disk :=
  match disk.opened[number]? with
  | some ⟨some place, offset⟩ =>
    match disk.get? place with
    | some (.file content) =>
      { disk.insert place (.file (overwrite content offset bytes)) with
        opened := disk.opened.set number ⟨some place, offset + bytes.length⟩ }
    | _ => disk
  | _ => disk

def inspect (disk : Disk) (path : Text) : Except FileError NodeKind :=
  match disk.find path with
  | .ok (_, node) => .ok node.kind
  | .error fault => .error ⟨.inspecting, [path], fault⟩

def makeDirectory (disk : Disk) (path : Text) : Except FileFault Disk := do
  let place ← disk.resolve (withoutSlashes path)
  match disk.get? place with
  | some _ => throw .alreadyExists
  | none => return disk.insert place .directory

/-- The path without its last name, given from its end on; nothing if no name is left. -/
def parentReversed (path : Text) : Text :=
  ((path.dropWhile (· == Path.separator)).dropWhile (· != Path.separator)).tail

/-- A directory above has a shorter path, so that going up comes to an end. -/
theorem parentReversed_length_lt {path : Text} (h : parentReversed path ≠ []) :
    (parentReversed path).length < path.length := by
  have outer := (List.dropWhile_suffix (l := path) (· == Path.separator)).length_le
  have inner := (List.dropWhile_suffix (l := path.dropWhile (· == Path.separator))
    (· != Path.separator)).length_le
  have positive : 0 < (parentReversed path).length := List.length_pos_iff.2 h
  simp only [parentReversed, List.length_tail] at positive ⊢
  omega

/-- Makes the directory with a path, given from its end on, and those above it. -/
def makeDirectoriesReversed (disk : Disk) (reversed : Text) : Except FileError Disk :=
  let path := reversed.reverse
  match disk.find path with
  | .ok (_, .directory) => .ok disk
  | .ok (_, .file _) => .error ⟨.making, [path], .notDirectory⟩
  | .error _ => do
    let disk ← if h : parentReversed reversed = [] then .ok disk
      else
        have := parentReversed_length_lt h
        disk.makeDirectoriesReversed (parentReversed reversed)
    match disk.makeDirectory path with
    | .ok disk => return disk
    | .error fault =>
      match disk.find path with
      | .ok (_, .directory) => return disk
      | _ => throw ⟨.making, [path], fault⟩
termination_by reversed.length

/-- Makes a directory and those above it, as far as they are missing. -/
def makeDirectories (disk : Disk) (path : Text) : Except FileError Disk :=
  disk.makeDirectoriesReversed path.reverse

def freshPath (directory : Text) (number : Nat) : Text :=
  directory ++ Text.onlyIf (directory.getLast? ≠ some Path.separator) [Path.separator] ++
    "tmp-" ++ Text.ofNat number

def isFree (disk : Disk) (path : Text) : Bool :=
  match disk.find path with
  | .ok _ => false
  | .error _ => true

/-- Makes a new file under the first numbered name that is free. -/
def writeFresh (disk : Disk) (directory bytes : Text) : Except FileError (Text × Disk) :=
  let paths := (List.range (disk.nodes.length + 1)).map (freshPath directory)
  match paths.find? disk.isFree with
  | some path => do return (path, ← disk.writeBytes path bytes)
  | none => .error ⟨.opening, [freshPath directory 0], .alreadyExists⟩

def renameFault? (disk : Disk) (old : Place) (node : Node) (new : Place) : Option FileFault :=
  match disk.get? new with
  | some .directory => some .alreadyExists
  | some (.file _) => if node = .directory then some .notDirectory else none
  | none => if old.isPrefixOf new then some .invalidArgument else none

def rename (disk : Disk) (old new : Text) : Except FileError Disk :=
  let outcome : Except FileFault Disk := do
    let (place, node) ← disk.find old
    let goal ← disk.resolve (if node = .directory then withoutSlashes new else new)
    match disk.renameFault? place node goal with
    | some fault => throw fault
    | none => return if place = goal then disk else disk.move place goal
  outcome.mapError fun fault => ⟨.renaming, [old, new], fault⟩

def remove (disk : Disk) (path : Text) : Except FileError Disk :=
  match disk.find path with
  | .error fault => .error ⟨.removing, [path], fault⟩
  | .ok (place, _) =>
    if disk.namesIn place = [] then .ok (disk.eraseBelow place)
    else .error ⟨.removing, [path], .notEmpty⟩

/-- The disk without a path and everything below it. A directory is removed under a name of its own
only, so a path that ends in the name `.` removes nothing. -/
def removeAll (disk : Disk) (path : Text) : Disk :=
  if (Text.ofString "/.").isSuffixOf (Path.separator :: path) then disk
  else match disk.find path with
  | .error _ => disk
  | .ok (place, _) => disk.eraseBelow place

/-- Makes a change that may fail; after a failure the disk is as it was. -/
def change (f : Disk → Except FileError Disk) : StateM Disk (Except FileError Unit) := do
  match f (← get) with
  | .ok disk =>
    set disk
    return .ok ()
  | .error e => return .error e

instance : Files (StateM Disk) where
  readBytes path := return (← get).readBytes path
  writeBytes path bytes := change (·.writeBytes path bytes)
  create path := do
    match (← get).create path with
    | .ok (number, disk) =>
      set disk
      return .ok fun bytes => modify (·.append number bytes)
    | .error e => return .error e
  inspect path := return (← get).inspect path
  makeDirectories path := change (·.makeDirectories path)
  writeFresh directory bytes := do
    match (← get).writeFresh directory bytes with
    | .ok (path, disk) =>
      set disk
      return .ok path
    | .error e => return .error e
  rename old new := change (·.rename old new)
  remove path := change (·.remove path)
  removeAll path := change fun disk => .ok (disk.removeAll path)

end Disk

end PrgScript
