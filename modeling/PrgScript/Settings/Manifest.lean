import PrgScript.Files.Basic
import PrgScript.Settings.Basic
import PrgScript.Source.Path

/-!
# Manifests

A manifest is a file with settings. It is given explicitly, or it is the nearest one
found by going up from a directory. Without one the usual settings are in effect.
-/

namespace PrgScript

inductive ManifestError where
  /-- The search for a manifest has failed. -/
  | search (path : Text) (e : FileError)
  | unreadable (path : Text) (e : FileError)
  | malformed (path : Text)
  | unknownKeys (path : Text) (keys : List Text)
  | fault (path : Text) (reason : SettingsFault)

def ManifestError.message : ManifestError → Text
  | .search path e => "failed to stat " ++ Text.quote path ++ ": " ++ e.message
  | .unreadable path e => path ++ ": failed to parse TOML: " ++ e.message
  | .malformed path => path ++ ": failed to parse TOML: malformed document"
  | .unknownKeys path keys => path ++ ": unknown configuration key: " ++ Text.join ", " keys
  | .fault path reason => path ++ ": " ++ reason.message

namespace Manifest

def fileName : Text := "xbase.toml"

/-- The settings with the path of their manifest. A relative path for artifacts starts from its
directory, if it is given under its name in small letters. -/
def locate (path : Text) (doc : Toml.Document) (s : Settings) : Settings :=
  let fields? := Toml.Fields.at? ["cache"] doc.root
  let isGiven := (fields?.bind (List.lookup (Text.ofString "dir"))).isSome
  let directory :=
    if isGiven ∧ s.cacheDirectory ≠ [] ∧ !Path.isAbsolute s.cacheDirectory then
      Path.join [Path.directory path, s.cacheDirectory]
    else s.cacheDirectory
  { s with manifest := path, cacheDirectory := directory }

def parse (path bytes : Text) : Except ManifestError Settings :=
  let read := do
    let doc ← Toml.Document.ofBytes? bytes
    return (doc, ← Settings.readTables ({}, []) doc.root)
  match read with
  | none => .error (.malformed path)
  | some (doc, s, known) =>
    let unknown := Settings.unknownKeys doc known
    if unknown ≠ [] then .error (.unknownKeys path unknown)
    else
      let s := locate path doc s
      match s.fault? with
      | some fault => .error (.fault path fault)
      | none => .ok s

/-- The directories from one up to the root, given as an absolute path without needless parts. -/
def upwards : Nat → Text → List Text
  | 0, directory => [directory]
  | bound + 1, directory =>
    let parent := Path.directory directory
    if parent = directory then [directory] else directory :: upwards bound parent

variable {m : Type → Type} [Monad m] [Files m]

def load (path : Text) : m (Except ManifestError Settings) := do
  match ← Files.readBytes path with
  | .error e => return .error (.unreadable path e)
  | .ok bytes => return parse path bytes

def findIn : List Text → m (Except ManifestError (Option Text))
  | [] => return .ok none
  | directory :: directories => do
    let path := Path.join [directory, fileName]
    match ← Files.inspect path with
    | .ok _ => return .ok (some path)
    | .error e =>
      if e.fault = .notFound then findIn directories else return .error (.search path e)

/-- The nearest manifest in a directory or above it; an empty path is the working directory. -/
def find (workingDirectory start : Text) : m (Except ManifestError (Option Text)) :=
  let directory := Path.absolute workingDirectory (if start = [] then "." else start)
  findIn (upwards directory.length directory)

/-- The settings in effect: those of the manifest given, else of the nearest one, else the usual
ones. -/
def discover (workingDirectory explicit start : Text) : m (Except ManifestError Settings) := do
  if explicit ≠ [] then load explicit
  else
    match ← find workingDirectory start with
    | .error e => return .error e
    | .ok none => return .ok {}
    | .ok (some path) => load path

end Manifest

end PrgScript
