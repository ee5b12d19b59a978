import PrgScript.CommandLine.Invocation
import PrgScript.Machine.Argument
import PrgScript.Machine.Recorder
import PrgScript.Machine.Terminal
import PrgScript.Pipeline.View
import PrgScript.Token.Listing
import PrgScript.Tool
import PrgScript.Version

/-!
# The jobs of the tool

What each command does once its settings are known.
-/

namespace PrgScript.CommandLine

def isFormat (name : Text) : Bool := name = "pretty" || name = "json"

namespace Invocation

variable {m : Type → Type} [Monad m] [Host m]

/-- Prints the tokens of a file, up to its end or its first error. -/
def tokenize (inv : Invocation m) (path dialectName format : Text) : CommandM m Unit := do
  if !isFormat format then fail ("unknown format: " ++ format)
  match Dialect.ofName? dialectName with
  | none => fail (Dialect.unknownName dialectName)
  | some dialect =>
    match ← Files.readBytes (m := m) path with
    | .error e => fail ("tokenization failed: " ++ loadMessage path e)
    | .ok bytes =>
      let t := Tokenization.ofFile (File.ofDisk path bytes) (some dialect)
      inv.showDiagnostics .stored t.file t.bag
      print (if format = "json" then Token.jsonListing t.tokens else Token.listing t.tokens)
      if t.failure.isSome then throw .reported

/-- Compiles a script and prints the listing, or writes it to a file. -/
def compile (inv : Invocation m) (path output : Text) : CommandM m Unit := do
  let (check, tracer) ←
    Check.ofPath (m := m) inv.compileOptions (some .dbase) inv.log.tracer path inv.log.flush
  let _ ← inv.log.flush tracer
  match check.result with
  | .error e => fail (loadMessage path e)
  | .ok c =>
    inv.showCompilation c check.report
    match c.result with
    | .error _ => throw .reported
    | .ok compiled =>
      if output = [] then print compiled.listing
      else
        match ← Files.writeBytes (m := m) output compiled.listing with
        | .error e => fail ("failed to write listing: " ++ e.message)
        | .ok _ => inv.remark ("wrote " ++ output ++ "\n")

def stageLine (r : RunResult) : Text :=
  let stageTime (stage : Stage) : Text :=
    match r.times.lookup stage with
    | some time => " " ++ stage.name ++ "=" ++ Number.fixed 2 (milliseconds time) ++ "ms"
    | none => []
  r.path ++ " (" ++ (if r.hit then "cached" else "translated") ++ "):" ++
    [Stage.compile, .cache, .execute].flatMap stageTime ++ "\n"

/-- Tells what there is to tell about a run, and fails if it has failed. The diagnostics of a failed
compilation have told all. -/
def finishRun (inv : Invocation m) (r : RunResult) : CommandM m Unit := do
  if let some c := r.compilation then inv.showCompilation c r.report
  if inv.timed then tell (stageLine r)
  match r.error with
  | none => return
  | some (.exec stop) =>
    tell (r.path ++ ": " ++ (RunError.exec stop).message ++ "\n")
    throw .reported
  | some e => if r.compilation.isSome then throw .reported else fail e.message

def pipeline {σ : Type} (inv : Invocation m) (cache : Cache) (console : Console σ) : Pipeline σ :=
  { cache, console, limit := inv.settings.limit, timed := inv.timed, rounds := inv.rounds }

/-- Runs scripts one after another on a terminal, up to the first that fails. -/
def runOnTerminal (inv : Invocation m) (p : Pipeline Terminal) (args : List Value) (ansi : Bool)
    (tracer : Trace.Tracer) (colors : ColorPair) : List Text → CommandM m Unit
  | [] => return
  | script :: scripts => do
    let start : PipelineState Terminal := { console := { ansi, colors }, tracer }
    let (r, s) ← p.run (m := m) start script args inv.log.flush
    print s.console.output
    let tracer ← inv.log.flush s.tracer
    inv.finishRun r
    inv.runOnTerminal p args ansi tracer s.console.colors scripts

/-- Runs scripts one after another, up to the first that fails, and gathers what became of them. -/
def runAll {σ : Type} (inv : Invocation m) (p : Pipeline σ) (args : List Value)
    (s : PipelineState σ) : List Text → m (List RunResult × PipelineState σ)
  | [] => return ([], s)
  | script :: scripts => do
    let (r, s) ← p.run s script args inv.log.flush
    let s := { s with tracer := ← inv.log.flush s.tracer }
    if r.error.isSome then return ([r], s)
    let (rs, s) ← inv.runAll p args s scripts
    return (r :: rs, s)

/-- The screen as one text, without empty lines at its end. -/
def screenText (screen : List Text) : Text :=
  ((Text.join [Text.newline] screen).reverse.dropWhile (· == Text.newline)).reverse

/-- Runs scripts behind a progress view; what they show is printed when all of them are over. -/
def runBehindView (inv : Invocation m) (cache : Cache) (args : List Value) (scripts : List Text) :
    CommandM m Unit := do
  let start : PipelineState Recorder := { console := {}, tracer := inv.log.tracer }
  let (results, s) ← inv.runAll (inv.pipeline cache Recorder.console) args start scripts
  let view := (results.flatMap (·.events)).foldl ProgressView.apply (.start "xbase run" scripts)
  tell view.finish.text
  let screen := screenText s.console.rows
  if screen ≠ [] then print (screen ++ "\n")
  for r in results do inv.finishRun r

def run (inv : Invocation m) (scripts : List Text) (args : List Value) (withView : Bool) :
    CommandM m Unit := do
  let cache ← require ("failed to open cache: " ++ ·) (← openCache (m := m) inv.settings)
  if withView then inv.runBehindView cache args scripts
  else
    let ansi := inv.inColor && (← Host.isTerminal (m := m) .output)
    inv.runOnTerminal (inv.pipeline cache Terminal.console) args ansi inv.log.tracer .default
      scripts

def showCheck (inv : Invocation m) (inJson : Bool) (c : Check) : CommandM m Unit :=
  match c.result with
  | .error e => tell (c.path ++ ": " ++ loadMessage c.path e ++ "\n")
  | .ok compilation =>
    if inJson then
      let options : DocumentOptions := { positions := true, paths := inv.paths .relative }
      print (options.document { files := #[compilation.file] } compilation.bag.items)
    else inv.showCompilation compilation c.report

/-- Compiles scripts and tells what is wrong with them. -/
def check (inv : Invocation m) (scripts : List Text) (format : Text) : CommandM m Unit := do
  if !isFormat format then fail ("unknown format: " ++ format)
  let (checks, tracer) ←
    Check.ofPaths (m := m) inv.compileOptions inv.log.flush inv.log.tracer scripts
  let _ ← inv.log.flush tracer
  for c in checks do inv.showCheck (format = "json") c
  let total := checks.foldl (fun (r : Report) c => r.merge c.path c.report) {}
  if inv.timed ∧ !total.phases.isEmpty then tell total.text
  let failed := (checks.filter (!·.isOk)).length
  if format = "pretty" then
    inv.remark ("checked " ++ Text.ofNat checks.length ++ " script(s), " ++ Text.ofNat failed ++
      " failed\n")
  if 0 < failed then throw .reported

def clean (inv : Invocation m) : CommandM m Unit := do
  let cache ← require id (← openCache (m := m) inv.settings)
  let mark := Calendar.stamp (← Clock.now (m := m))
  match ← cache.clean (m := m) mark with
  | .error e => fail ("failed to remove " ++ Text.quote cache.directory ++ ": " ++ e.message)
  | .ok _ => if !inv.quiet then print ("removed " ++ cache.directory ++ "\n")

def compileHelp (inv : Invocation m) (file : Text) : CommandM m Unit := do
  let r ← Tool.run (m := m) {} file
  inv.remark r.printed
  if let some e := r.error then fail e.message
  inv.remark (r.tool ++ " finished in " ++ Duration.text (Duration.roundTo 1000000 r.nanoseconds) ++
    "\n")

def versionRecord (v : Version) : Json :=
  .record ([Json.field "tool" (.text "xbase"), Json.field "version" (.text v.number)] ++
    Json.textField "git_commit" v.commit ++ Json.textField "build_date" v.date)

def showVersion (inv : Invocation m) (format : Text) : CommandM m Unit :=
  let v : Version := {}
  if format = "json" then print (Json.document (versionRecord v))
  else if format = "pretty" then print (v.info inv.inColor)
  else fail ("unsupported format " ++ Text.quote format ++ " (must be pretty or json)")

end Invocation

end PrgScript.CommandLine
