import PrgScript.CommandLine.Command
import PrgScript.Diagnostic.Display
import PrgScript.Host.Basic
import PrgScript.Pipeline.Check
import PrgScript.Settings.Manifest

/-!
# Invocations

What every command derives from the settings and the flags, of which the flags win: the
settings in effect, how much is shown and in which colours, and where the trace goes.
-/

namespace PrgScript.CommandLine

/-- Why a command fails: the user has been told already, or there is something to tell. -/
inductive Failure where
  | reported
  | told (message : Text)
deriving DecidableEq, Repr

def Failure.message : Failure → Text
  | .reported => "failed"
  | .told message => message

abbrev CommandM (m : Type → Type) := ExceptT Failure m

/-- How a trace is written: what is recorded, the format, when recording began, and where it
goes. -/
structure TraceLog (m : Type → Type) where
  level : Trace.Level := .off
  format : Trace.Format := .text
  started : Int := 0
  write : Text → m Unit

/-- What every command derives from settings and flags. -/
structure Invocation (m : Type → Type) where
  settings : Settings := {}
  arguments : Arguments := {}
  workingDirectory : Text
  inColor : Bool := false
  quiet : Bool := false
  timed : Bool := false
  log : TraceLog m
  /-- The most rounds of a loop of a script. -/
  rounds : Nat

/-- The settings with the flags that are given in their place. -/
def overriddenBy (s : Settings) (a : Arguments) : Settings :=
  let text (name : Text) (value : Text) : Text := if a.isGiven name then a.text name else value
  { s with
    color := text "color" s.color
    limit := if a.isGiven "max-diagnostics" then a.number "max-diagnostics" else s.limit
    traceLevel := text "trace-level" s.traceLevel
    traceFormat := text "trace-format" s.traceFormat
    cacheDirectory := text "cache-dir" s.cacheDirectory }

variable {m : Type → Type} [Monad m] [Host m]

def fail {α : Type} (message : Text) : CommandM m α := throw (.told message)

/-- Goes on with a result or fails with the message of its error. -/
def require {α ε : Type} (message : ε → Text) : Except ε α → CommandM m α
  | .ok a => return a
  | .error e => fail (message e)

def print (t : Text) : CommandM m Unit := do
  if t ≠ [] then Host.write (m := m) .output t

/-- Writes where diagnostics go. -/
def tell (t : Text) : CommandM m Unit := do
  if t ≠ [] then Host.write (m := m) .diagnostics t

namespace TraceLog

/-- A tracer that has recorded nothing. -/
def tracer (log : TraceLog m) : Trace.Tracer := { level := log.level }

/-- Writes what a tracer has recorded since the last time. -/
def flush (log : TraceLog m) (tracer : Trace.Tracer) : m Trace.Tracer := do
  let (events, tracer) := tracer.handOver
  if events ≠ [] then
    let time ← Clock.now
    log.write (events.flatMap fun (seq, ev) =>
      ev.write log.format { time, since := log.started, seq })
  return tracer

end TraceLog

/-- Whether a path names a file of one record a line. -/
def namesRecords (path : Text) : Bool := (Text.ofString ".ndjson").isSuffixOf path

def openLog (s : Settings) (path : Text) : CommandM m (TraceLog m) := do
  let level := (Trace.Level.ofName? s.traceLevel).getD .off
  let format := (Trace.Format.ofName? s.traceFormat).getD .text
  let started ← Clock.now (m := m)
  let log : TraceLog m :=
    { level, started, format := if namesRecords path then .json else format
      write := Host.write .diagnostics }
  if level = .off ∨ path = [] then return log
  if path = "-" then return { log with write := Host.write .errorStream }
  match ← Files.create (m := m) path with
  | .error e => fail ("failed to create tracer: failed to open trace output: " ++ e.message)
  | .ok write => return { log with write }

def openProfile (label : String) (path : Text) : CommandM m Unit := do
  if path = [] then return
  match ← Files.writeBytes (m := m) path [] with
  | .error e => fail (label ++ ": " ++ e.message)
  | .ok _ => return

def openProfiles (a : Arguments) : CommandM m Unit := do
  openProfile "cpu profile" (a.text "cpuprofile")
  openProfile "runtime trace" (a.text "runtime-trace")

/-- Makes the file of the memory profile, if it is asked for. -/
def closeProfiles (a : Arguments) : m Unit := do
  let path := a.text "memprofile"
  if path ≠ [] then
    match ← Files.writeBytes path [] with
    | .ok _ => return
    | .error e => Host.write .errorStream ("profile: heap profile: " ++ e.message ++ "\n")

def findSettings (workingDirectory : Text) (a : Arguments) : CommandM m Settings := do
  let found ← Manifest.discover (m := m) workingDirectory (a.text "config") workingDirectory
  let settings := overriddenBy (← require ManifestError.message found) a
  if let some fault := settings.fault? then fail fault.message
  return settings

/-- Prepares what every command needs and does a job with it. The profiles that were begun are
closed even if the job fails. -/
def withInvocation (rounds : Nat) (a : Arguments) (job : Invocation m → CommandM m Unit) :
    CommandM m Unit := do
  let workingDirectory ← Host.workingDirectory (m := m)
  let settings ← findSettings workingDirectory a
  let onTerminal ← Host.isTerminal (m := m) .diagnostics
  openProfiles a
  let outcome ← ExceptT.lift (ExceptT.run (do
    let log ← openLog settings (a.text "trace")
    job {
      settings, arguments := a, workingDirectory, log, rounds
      inColor := settings.color = "on" || (settings.color = "auto" && onTerminal)
      quiet := a.switch "quiet"
      timed := a.switch "timings" }))
  closeProfiles (m := m) a
  match outcome with
  | .ok _ => return
  | .error e => throw e

def cacheHomeVariable : Text := "XDG_CACHE_HOME"

/-- The directory of the cache: the one chosen, else one in the usual place. -/
def cacheDirectory (s : Settings) : m (Except Text Text) := do
  if s.cacheDirectory ≠ [] then return .ok s.cacheDirectory
  let base := (← Host.environment cacheHomeVariable).getD []
  if base ≠ [] then return .ok (Path.join [base, "xbase"])
  let home := (← Host.environment "HOME").getD []
  if home ≠ [] then return .ok (Path.join [home, ".cache", "xbase"])
  return .error "$HOME is not defined"

def openCache (s : Settings) : m (Except Text Cache) := do
  match ← cacheDirectory s with
  | .error message => return .error message
  | .ok directory =>
    return (← Cache.openAt directory s.trustsNames).mapError CacheError.message

namespace Invocation

/-- How paths of scripts are shown. -/
def paths (inv : Invocation m) (mode : PathMode) : PathDisplay :=
  { mode, workingDirectory := inv.workingDirectory }

def showDiagnostics (inv : Invocation m) (mode : PathMode) (file : File) (bag : Bag) :
    CommandM m Unit :=
  let display : Display := { colored := inv.inColor, paths := inv.paths mode, context := 1 }
  tell (display.bag { files := #[file] } bag)

/-- Shows the diagnostics of a compilation and its timings. If less is to be shown, warnings alone
are not. -/
def showCompilation (inv : Invocation m) (c : Compilation) (report : Report) : CommandM m Unit := do
  if c.bag.items ≠ [] ∧ (!inv.quiet ∨ c.bag.hasErrors) then
    inv.showDiagnostics .relative c.file c.bag
  if inv.timed ∧ !report.phases.isEmpty then tell report.text

/-- Tells something that is not essential. -/
def remark (inv : Invocation m) (t : Text) : CommandM m Unit := do
  if !inv.quiet then tell t

def compileOptions (inv : Invocation m) : CompileOptions :=
  { limit := inv.settings.limit, timed := inv.timed }

end Invocation

end PrgScript.CommandLine
