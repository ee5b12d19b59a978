import PrgScript.CommandLine.Basic
import Std.Time.DateTime.Timestamp

/-!
# The program

The command line run on the operating system. Nothing is decided here: every operation
that the tool needs is handed on to the system, and a failure of the system becomes a
failed operation on files.
-/

namespace PrgScript

namespace Text

def toString (t : Text) : String := String.ofList (chars t)

end Text

namespace FileFault

/-- What a failure of the system means. -/
def ofSystem : IO.Error → FileFault
  | .noFileOrDirectory .. => .notFound
  | .noSuchThing .. => .notFound
  | .alreadyExists .. => .alreadyExists
  | .permissionDenied .. => .denied
  | .unsatisfiedConstraints .. => .notEmpty
  | .inappropriateType _ code details =>
    if code = 21 then .isDirectory
    else if code = 20 then .notDirectory
    else .other (Text.ofString details)
  | .invalidArgument _ code _ => if code = 36 then .nameTooLong else .invalidArgument
  | e => .other (Text.ofString e.toString)

end FileFault

/-- An operation of the system on some paths. A failure is told of the operation that it is. -/
def onSystem {α : Type} (operation : FileOperation) (paths : List Text) (action : IO α) :
    IO (Except FileError α) := do
  try
    return .ok (← action)
  catch e =>
    let fault := FileFault.ofSystem e
    -- A directory can be opened like a file, and only reading it fails.
    let operation :=
      if operation = .opening ∧ fault = .isDirectory then .reading else operation
    return .error ⟨operation, paths, fault⟩

def readSystemFile (path : Text) : IO (Except FileError Text) :=
  onSystem .opening [path] do return (← IO.FS.readBinFile path.toString).data.toList

/-- Makes or empties a file and keeps it open. A failure to write to it later is passed over. -/
def createSystemFile (path : Text) : IO (Except FileError (Text → IO Unit)) :=
  onSystem .opening [path] do
    let handle ← IO.FS.Handle.mk path.toString .write
    return fun bytes => do
      try
        handle.write ⟨bytes.toArray⟩
        handle.flush
      catch _ => return

/-- Whether a path leads to a file or a directory: of a directory nothing can be read. -/
def inspectSystemPath (path : Text) : IO (Except FileError NodeKind) := do
  let opened ← onSystem .inspecting [path] do
    let handle ← IO.FS.Handle.mk path.toString .read
    let _ ← handle.read 1
  match opened with
  | .ok _ => return .ok .file
  | .error ⟨_, _, .isDirectory⟩ => return .ok .directory
  | .error e => return .error e

/-- Makes a file under the first of some numbered names that is free. -/
def writeFreshFrom (directory bytes : Text) (first : Nat) : Nat → IO (Except FileError Text)
  | 0 => return .error ⟨.opening, [directory], .alreadyExists⟩
  | attempts + 1 => do
    let path := Path.join [directory, "tmp-" ++ Text.ofNat first]
    let made ← onSystem .opening [path] do
      let handle ← IO.FS.Handle.mk path.toString .writeNew
      handle.write ⟨bytes.toArray⟩
    match made with
    | .ok _ => return .ok path
    | .error ⟨_, _, .alreadyExists⟩ => writeFreshFrom directory bytes (first + 1) attempts
    | .error e => return .error e

def removeSystemPath (path : Text) : IO (Except FileError Unit) := do
  match ← inspectSystemPath path with
  | .ok .directory => onSystem .removing [path] (IO.FS.removeDir path.toString)
  | _ => onSystem .removing [path] (IO.FS.removeFile path.toString)

def removeSystemTree (path : Text) : IO (Except FileError Unit) := do
  match ← inspectSystemPath path with
  | .ok .directory => onSystem .removing [path] (IO.FS.removeDirAll path.toString)
  | .error ⟨_, _, .notFound⟩ => return .ok ()
  | _ => onSystem .removing [path] (IO.FS.removeFile path.toString)

/-- Measures an action. It is not inlined, so that the work is done between the two looks at the
clock and not where its result is used. -/
@[noinline]
def timedAction {α : Type} (work : Unit → IO α) : IO (α × Int) := do
  let start ← IO.monoNanosNow
  let a ← work ()
  return (a, ((← IO.monoNanosNow) : Int) - start)

def streamOf : Channel → IO IO.FS.Stream
  | .output => IO.getStdout
  | .diagnostics | .errorStream => IO.getStderr

instance : Host IO where
  readBytes := readSystemFile
  writeBytes path bytes :=
    onSystem .opening [path] (IO.FS.writeBinFile path.toString ⟨bytes.toArray⟩)
  create := createSystemFile
  inspect := inspectSystemPath
  makeDirectories path := onSystem .making [path] (IO.FS.createDirAll path.toString)
  writeFresh directory bytes := do writeFreshFrom directory bytes (← IO.monoNanosNow) 10000
  rename old new := onSystem .renaming [old, new] (IO.FS.rename old.toString new.toString)
  remove := removeSystemPath
  removeAll := removeSystemTree
  timed := timedAction
  now := do return (← Std.Time.Timestamp.now).toNanosecondsSinceUnixEpoch.val / 1000
  workingDirectory := do return Text.ofString (← IO.currentDir).toString
  environment name := do return (← IO.getEnv name.toString).map Text.ofString
  write channel t := do
    let stream ← streamOf channel
    stream.write ⟨t.toArray⟩
    stream.flush
  isTerminal channel := do (← streamOf channel).isTty
  runProgram name _ _ :=
    return .missing ("exec: " ++ Text.quote name ++ ": executable file not found in $PATH")

/-- Runs the tool and tells the user why it failed, unless that was done. -/
def runTool (argv : List String) : IO UInt32 := do
  match ← (CommandLine.execute (m := IO) (2 ^ 62) (argv.map Text.ofString)).run with
  | .ok _ => return 0
  | .error .reported => return 1
  | .error (.told message) =>
    Host.write .errorStream ("Error: " ++ message ++ "\n")
    return 1

end PrgScript

def main (argv : List String) : IO UInt32 := PrgScript.runTool argv
