import PrgScript.Pipeline.Basic

/-!
# Compiling scripts on disk

A script on disk is loaded and compiled. Loading and compiling are spans of the trace
inside one for both, and two phases of a timed compilation. Several scripts are checked
one after another; none knows of the others.
-/

namespace PrgScript

structure CompileOptions where
  /-- The most diagnostics of one script, if positive. -/
  limit : Int := 0
  /-- Whether the phases are timed. -/
  timed : Bool := false
  /-- The name of every program, unless empty. -/
  unitName : Text := []

/-- The outcome of compiling the script at a path. -/
structure Check where
  path : Text
  result : Except FileError Compilation
  report : Report := {}

namespace Check

def isOk (c : Check) : Bool :=
  match c.result with
  | .ok ⟨_, .ok _, _, _⟩ => true
  | _ => false

variable {m : Type → Type} [Monad m] [Files m] [Clock m]

/-- Loads and compiles the script at a path. What was recorded before is handed over first, since
the trace may go to the script itself. -/
def ofPath (options : CompileOptions) (dialect : Option Dialect) (tracer : Trace.Tracer)
    (path : Text) (handOver : Trace.Tracer → m Trace.Tracer := pure) :
    m (Check × Trace.Tracer) := do
  let (span, tracer) := tracer.beginSpan .driver "translate" 0
  let (loadSpan, tracer) := tracer.beginSpan .pass "load" span.id
  let tracer ← handOver tracer
  let (loaded, loadTime) ← Clock.timed fun _ => Files.readBytes path
  let tracer := tracer.endSpan loadSpan path
  match loaded with
  | .error e => return ({ path, result := .error e }, tracer.endSpan span [])
  | .ok bytes =>
    let (c, time) ← Clock.timed fun _ =>
      pure (compile (File.ofDisk path bytes) dialect options.limit options.unitName)
    let loading : Phase := { name := "load_file", milliseconds := milliseconds loadTime }
    let report := if options.timed then Report.ofPhases (loading :: c.phases time) else {}
    return ({ path, result := .ok c, report }, (c.trace tracer span.id).endSpan span [])

def ofPaths (options : CompileOptions) (handOver : Trace.Tracer → m Trace.Tracer)
    (tracer : Trace.Tracer) : List Text → m (List Check × Trace.Tracer)
  | [] => return ([], tracer)
  | path :: paths => do
    let (check, tracer) ← ofPath options (some .dbase) tracer path handOver
    let (checks, tracer) ← ofPaths options handOver tracer paths
    return (check :: checks, tracer)

end Check

end PrgScript
