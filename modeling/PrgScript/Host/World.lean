import PrgScript.Files.Disk
import PrgScript.Host.Basic
import PrgScript.Text.Quoted

/-!
# Worlds in memory

A world is a system held in memory: a disk, an environment, what was written so far,
and a few small programs that can be started.
-/

namespace PrgScript

/-- A system in memory. -/
structure World where
  disk : Disk := {}
  environment : List (Text × Text) := []
  written : Array (Channel × Text) := #[]

namespace World

def textOn (w : World) (channel : Channel) : Text :=
  w.written.toList.flatMap fun (c, t) => if c = channel then t else []

/-- What a program prints and the status it ends with, given its arguments and the disk as seen
from its working directory. -/
abbrev Utility := List Text → Disk → Text × Nat

/-- Whether an argument holds options of `echo`: letters that it knows after a hyphen. -/
def isEchoOption : Text → Bool
  | 45 :: b :: letters => (b :: letters).all (Text.ofString "neE").contains
  | _ => false

/-- Prints its arguments after the options. -/
def echoUtility : Utility := fun arguments _ =>
  let options := arguments.takeWhile isEchoOption
  let shown := Text.join " " (arguments.drop options.length)
  (shown ++ Text.onlyIf (!options.any (·.contains 110)) "\n", 0)

/-- Prints the content of one file, or what is wrong with it. -/
def catFile (disk : Disk) (path : Text) : Text × Bool :=
  match disk.find path with
  | .ok (_, .file bytes) => (bytes, true)
  | .ok (_, .directory) => ("cat: " ++ path ++ ": Is a directory\n", false)
  | .error .notFound => ("cat: " ++ path ++ ": No such file or directory\n", false)
  | .error .notDirectory => ("cat: " ++ path ++ ": Not a directory\n", false)
  | .error fault => ("cat: " ++ path ++ ": " ++ fault.message ++ "\n", false)

/-- The options of `cat` in full. -/
def catOptions : List Text := [
  "show-all", "number-nonblank", "show-ends", "number", "squeeze-blank", "show-tabs",
  "show-nonprinting", "help", "version"]

/-- What is wrong with an argument that looks like options of `cat`, if anything is. -/
def catOptionFault? : Text → Option Text
  | 45 :: 45 :: name =>
    if name = [] ∨ catOptions.any name.isPrefixOf then none
    else some ("unrecognized option '--" ++ name ++ "'")
  | 45 :: letters =>
    (letters.find? fun b => !(Text.ofString "AbeEnstTuv").contains b).map fun b =>
      "invalid option -- '" ++ b :: Text.ofString "'"
  | _ => none

/-- Prints the contents of files. An argument that begins with a hyphen is an option or stands for
the input, which is empty. -/
def catUtility : Utility := fun arguments disk =>
  match arguments.findSome? catOptionFault? with
  | some fault => ("cat: " ++ fault ++ "\nTry 'cat --help' for more information.\n", 1)
  | none =>
    let results := (arguments.filter (·.head? != some 45)).map (catFile disk)
    (results.flatMap (·.1), if results.all (·.2) then 0 else 1)

def programs : List (Text × Utility) :=
  [("echo", echoUtility), ("cat", catUtility), ("true", fun _ _ => ([], 0)),
    ("false", fun _ _ => ([], 1))]

def programDirectories : List Text := ["/usr/bin/", "/bin/"]

def programAt? (path : Text) : Option Utility :=
  programDirectories.findSome? fun directory =>
    programs.findSome? fun (name, program) =>
      if directory ++ name = path then some program else none

/-- Finds a program by its path, or by its name if that has no slash. A file on the disk cannot be
started. -/
def findProgram (disk : Disk) (name : Text) : Except Text (Text × Utility) :=
  let missing (reason : Text) : Text := "exec: " ++ Text.quote name ++ ": " ++ reason
  if name.contains Path.separator then
    match programAt? name, disk.inspect name with
    | some program, _ => .ok (name, program)
    | none, .ok .file => .error (missing FileFault.denied.message)
    | none, .ok .directory => .error (missing FileFault.isDirectory.message)
    | none, .error e => .error (missing e.message)
  else
    match programs.lookup name with
    | some program => .ok (Text.ofString "/usr/bin/" ++ name, program)
    | none => .error (missing "executable file not found in $PATH")

def runProgram (disk : Disk) (name : Text) (arguments : List Text) (directory : Text) :
    ProgramRun :=
  match findProgram disk name with
  | .error reason => .missing reason
  | .ok (path, program) =>
    let start := if directory = [] then .ok (disk.workingDirectory, .directory)
      else disk.find directory
    match start with
    | .error fault => .refused (FileError.message ⟨.entering, [directory], fault⟩)
    | .ok (_, .file _) => .refused ("fork/exec " ++ path ++ ": " ++ FileFault.notDirectory.message)
    | .ok (place, .directory) =>
      let (printed, status) := program arguments { disk with workingDirectory := place }
      .ended printed status

def onDisk {α : Type} (action : StateM Disk α) : StateM World α := do
  let (a, disk) := action.run (← get).disk
  modify fun w => { w with disk }
  return a

instance : Host (StateM World) where
  readBytes path := onDisk (Files.readBytes path)
  writeBytes path bytes := onDisk (Files.writeBytes path bytes)
  create path := do
    return (← onDisk (Files.create path)).map fun write bytes => onDisk (write bytes)
  inspect path := onDisk (Files.inspect path)
  makeDirectories path := onDisk (Files.makeDirectories path)
  writeFresh directory bytes := onDisk (Files.writeFresh directory bytes)
  rename old new := onDisk (Files.rename old new)
  remove path := onDisk (Files.remove path)
  removeAll path := onDisk (Files.removeAll path)
  timed work := do return (← work (), 0)
  now := return 0
  workingDirectory := return (← get).disk.workingPath
  environment name := return (← get).environment.lookup name
  write channel t := modify fun w => { w with written := w.written.push (channel, t) }
  isTerminal _ := return false
  runProgram name arguments directory := do
    return World.runProgram (← get).disk name arguments directory

end World

end PrgScript
