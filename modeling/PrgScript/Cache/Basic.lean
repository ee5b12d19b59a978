import PrgScript.Artifact.Basic
import PrgScript.Files.Basic
import PrgScript.Source.Path

/-!
# Caches

A cache is a directory of artifacts, one for each base name of a script. An artifact is
used again for a script with that base name as long as the digest of the source is the
same, or whatever the source is if names are trusted.
-/

namespace PrgScript

/-- A directory of artifacts. -/
structure Cache where
  directory : Text
  /-- Whether an artifact is used again for any source under its name. -/
  trustsNames : Bool := false

inductive CacheError where
  /-- The directory cannot be made. -/
  | unusable (e : FileError)
  | file (e : FileError)
  | noProgram
  | corrupt (path reason : Text)
deriving DecidableEq, Repr

namespace CacheError

def message : CacheError → Text
  | .unusable e => "cache: " ++ e.message
  | .file e => e.message
  | .noProgram => "cache: nil program"
  | .corrupt path reason => "cache: corrupt artifact: " ++ path ++ ": " ++ reason

/-- Whether an artifact is there and cannot be used. -/
def isCorrupt : CacheError → Bool
  | .corrupt .. => true
  | _ => false

end CacheError

namespace Cache

/-- The name under which the artifact of a script is kept. -/
def key (script : Text) : Text := Path.stem script

def pathOf (cache : Cache) (script : Text) : Text :=
  Path.join [cache.directory, key script ++ ".bin"]

def artifact (script hash : Text) (created : Int) (compiled : Compiled) : Artifact where
  schema := Artifact.currentSchema
  key := key script
  source := script
  hash := hash
  dialect := Artifact.primaryDialect
  listing := compiled.listing
  created := created
  program := compiled.program

/-- Whether an artifact can stand for a source with a digest. -/
def accepts (cache : Cache) (hash : Text) (a : Artifact) : Bool :=
  a.schema == Artifact.currentSchema && (cache.trustsNames || a.hash == hash)

/-- What the bytes of an artifact file tell about a source with a digest. An artifact of another
schema or another source is of no use; one that is no artifact, or whose program has a fault, is
corrupt. -/
def judge (cache : Cache) (path hash bytes : Text) : Except CacheError (Option Artifact) :=
  match Artifact.decode bytes with
  | .error reason => .error (.corrupt path reason)
  | .ok a =>
    if cache.accepts hash a then
      match a.program.fault? with
      | some fault => .error (.corrupt path fault.message)
      | none => .ok (some a)
    else .ok none

variable {m : Type → Type} [Monad m] [Files m]

/-- Makes the directory of a cache, as far as it is missing. -/
def openAt (directory : Text) (trustsNames : Bool) : m (Except CacheError Cache) := do
  match ← Files.makeDirectories directory with
  | .error e => return .error (.unusable e)
  | .ok _ => return .ok { directory, trustsNames }

/-- The artifact to use for a script whose source has a digest, if there is one. -/
def lookup (cache : Cache) (script hash : Text) : m (Except CacheError (Option Artifact)) := do
  let path := cache.pathOf script
  match ← Files.readBytes path with
  | .ok bytes => return cache.judge path hash bytes
  | .error e =>
    if e.fault = .notFound then return .ok none
    else if e.operation = .reading then return .error (.corrupt path e.message)
    else return .error (.file e)

/-- Puts bytes at a path as a whole: under a free name first, then by renaming. -/
def replaceFile (path bytes : Text) : m (Except FileError Unit) := do
  match ← Files.makeDirectories (Path.directory path) with
  | .error e => return .error e
  | .ok _ =>
    match ← Files.writeFresh (Path.directory path) bytes with
    | .error e => return .error e
    | .ok fresh =>
      match ← Files.rename fresh path with
      | .ok _ => return .ok ()
      | .error e =>
        let _ ← Files.remove fresh
        return .error e

/-- Keeps a compiled script as the artifact of its name, instead of the one before. -/
def store (cache : Cache) (script hash : Text) (created : Int) (compiled : Option Compiled) :
    m (Except CacheError Artifact) := do
  match compiled with
  | none => return .error .noProgram
  | some compiled =>
    let a := artifact script hash created compiled
    match ← replaceFile (cache.pathOf script) a.encode with
    | .ok _ => return .ok a
    | .error e => return .error (.file e)

/-- Removes a cache with all its artifacts. Its directory is put aside first, under a name with the
given mark, so that nothing half removed is left in its place. -/
def clean (cache : Cache) (mark : Text) : m (Except FileError Unit) := do
  match ← Files.inspect cache.directory with
  | .error ⟨_, _, .notFound⟩ => return .ok ()
  | _ =>
    let aside := cache.directory ++ ".old-" ++ mark
    match ← Files.rename cache.directory aside with
    | .error e => return .error e
    | .ok _ => Files.removeAll aside

end Cache

end PrgScript
