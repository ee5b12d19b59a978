import PrgScript.Cache.Basic
import PrgScript.Machine.Basic
import PrgScript.Pipeline.Event
import PrgScript.Script.Compilation
import PrgScript.Time.Report

/-!
# Running scripts through a cache

A run loads a script, looks for its artifact, compiles the script and keeps the result
unless there is a usable one, and executes the program. An artifact that cannot be used
is compiled anew; that it is there is recorded in the trace.
-/

namespace PrgScript

/-- What the runs of a pipeline share. -/
structure Pipeline (σ : Type) where
  cache : Cache
  console : Console σ
  /-- The most diagnostics of one compilation, if positive. -/
  limit : Int := 0
  /-- The name of every program, unless empty. -/
  unitName : Text := []
  /-- Whether the phases of a compilation are timed. -/
  timed : Bool := false
  /-- The most rounds of a loop. -/
  rounds : Nat

/-- What one run leaves to the next: the console, the trace, and how many scripts were compiled and
how many artifacts used. -/
structure PipelineState (σ : Type) where
  console : σ
  tracer : Trace.Tracer := {}
  compilations : Nat := 0
  hits : Nat := 0

inductive RunError where
  | load (path : Text) (e : FileError)
  | compile (e : ScriptFailure)
  | cache (path : Text) (e : CacheError)
  | exec (stop : Stop)

def loadMessage (path : Text) (e : FileError) : Text := "load " ++ path ++ ": " ++ e.message

def RunError.message : RunError → Text
  | .load path e => loadMessage path e
  | .compile e => e.message
  | .cache path e => "cache " ++ path ++ ": " ++ e.message
  | .exec stop => Machine.resultText (.error stop)

/-- What is known about a run. -/
structure RunResult where
  path : Text
  hit : Bool := false
  artifact : Option Artifact := none
  /-- The compilation, unless the artifact was in the cache. -/
  compilation : Option Compilation := none
  /-- The phases of the compilation. -/
  report : Report := {}
  times : StageTimes := []
  events : List ProgressEvent := []
  error : Option RunError := none

namespace RunResult

/-- Adds what is told about a stage. -/
def tell (r : RunResult) (stage : Stage) (status : Status) : RunResult :=
  { r with events := r.events ++ [{ file := r.path, stage, status }] }

def fail (r : RunResult) (stage : Stage) (e : RunError) : RunResult :=
  { r with
    events := r.events ++ [{ file := r.path, stage, status := .failed, error := some e.message }]
    error := some e }

def addTime (r : RunResult) (stage : Stage) (nanoseconds : Int) : RunResult :=
  { r with times := r.times.add stage nanoseconds }

end RunResult

/-- A duration in milliseconds, to the microsecond. -/
def milliseconds (nanoseconds : Int) : Float :=
  Float.ofInt (Duration.microseconds nanoseconds) / 1000

namespace Compilation

/-- The phase that a compilation is, as far as it went. -/
def phases (c : Compilation) (nanoseconds : Int) : List Phase :=
  if c.wasRead then
    [{ name := passName, milliseconds := PrgScript.milliseconds nanoseconds, note := c.note }]
  else []

end Compilation

namespace Report

def ofPhases (phases : List Phase) : Report where
  total := (phases.map (·.milliseconds)).sum
  phases := phases

end Report

inductive PipelineError where
  | noCache
  | noConsole
deriving DecidableEq, Repr

def PipelineError.message : PipelineError → Text
  | .noCache => "buildpipeline: missing cache"
  | .noConsole => "buildpipeline: missing console"

namespace Pipeline

/-- A pipeline with a cache and a console, both of which must be there. -/
def ofParts {σ : Type} (cache : Option Cache) (console : Option (Console σ)) (limit : Int)
    (unitName : Text) (rounds : Nat) : Except PipelineError (Pipeline σ) :=
  match cache, console with
  | none, _ => .error .noCache
  | some _, none => .error .noConsole
  | some cache, some console => .ok { cache, console, limit, unitName, rounds }

variable {σ : Type} {m : Type → Type} [Monad m] [Files m] [Clock m]

abbrev Progress (σ : Type) := RunResult × PipelineState σ

def execute (p : Pipeline σ) (span : Nat) (args : List Value) (a : Artifact) :
    Progress σ → m (Progress σ)
  | (r, s) => do
    let r := { r with artifact := some a }.tell .execute .working
    let (outcome, time) ← Clock.timed fun _ =>
      pure (Machine.run { program := a.program } p.console s.console s.tracer span p.rounds args)
    let s := { s with console := outcome.console, tracer := outcome.tracer }
    let r := r.addTime .execute time
    match outcome.result with
    | .ok _ => return (r.tell .execute .done, s)
    | .error stop => return (r.fail .execute (.exec stop), s)

/-- Compiles a script, keeps the artifact and executes it. What was recorded before the artifact is
kept is handed over first. -/
def compileAndExecute (p : Pipeline σ) (handOver : Trace.Tracer → m Trace.Tracer) (span : Nat)
    (args : List Value) (file : File) : Progress σ → m (Progress σ)
  | (r, s) => do
    let r := r.tell .compile .working
    let (c, time) ← Clock.timed fun _ => pure (compile file (some .dbase) p.limit p.unitName)
    let report := if p.timed then Report.ofPhases (c.phases time) else {}
    let s := { s with tracer := c.trace s.tracer span }
    let r := { r with compilation := some c, report }.addTime .compile time
    match c.result with
    | .error e => return (r.fail .compile (.compile e), s)
    | .ok compiled =>
      let s := { s with compilations := s.compilations + 1 }
      let s := { s with tracer := ← handOver s.tracer }
      let r := r.tell .compile .done
      let created ← Clock.now
      let (stored, time) ← Clock.timed fun _ => p.cache.store r.path file.hash created compiled
      let r := r.addTime .cache time
      match stored with
      | .error e => return (r.fail .cache (.cache r.path e), s)
      | .ok a => p.execute span args a (r.tell .cache .done, s)

/-- Runs a loaded script: its artifact if there is a usable one, else what it is compiled to. -/
def runFile (p : Pipeline σ) (handOver : Trace.Tracer → m Trace.Tracer) (span : Nat)
    (args : List Value) (file : File) : Progress σ → m (Progress σ)
  | (r, s) => do
    let r := r.tell .cache .working
    let (found, time) ← Clock.timed fun _ => p.cache.lookup r.path file.hash
    let r := r.addTime .cache time
    match found with
    | .ok (some a) =>
      let r := ({ r with hit := true }.tell .cache .hit).tell .compile .hit
      p.execute span args a (r, { s with hits := s.hits + 1 })
    | .ok none => p.compileAndExecute handOver span args file (r, s)
    | .error e =>
      let tracer := s.tracer.point .error "cache-corrupt" e.message
      p.compileAndExecute handOver span args file (r, { s with tracer })

/-- Runs the script at a path with arguments. The run is a span of the trace. A trace may go to a
file that the run reads or replaces, so whatever was recorded is handed over before files are
touched. -/
def run (p : Pipeline σ) (s : PipelineState σ) (path : Text) (args : List Value)
    (handOver : Trace.Tracer → m Trace.Tracer := pure) : m (Progress σ) := do
  let (span, tracer) := s.tracer.beginSpan .driver "run" 0
  let s := { s with tracer := ← handOver tracer }
  let r := RunResult.tell { path } .compile .queued
  let (r, s) ← match ← Files.readBytes path with
    | .error e => pure (r.fail .compile (.load path e), s)
    | .ok bytes => p.runFile handOver span.id args (File.ofDisk path bytes) (r, s)
  return (r, { s with tracer := s.tracer.endSpan span path })

end Pipeline

end PrgScript
