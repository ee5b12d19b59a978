import PrgScript.Scanner.Tokenization
import PrgScript.Script.Compile
import PrgScript.Trace.Tracer

/-!
# Compilations

A compilation is the whole answer to a request to compile one script in some dialect:
the program or the error, the context if there is one, and the diagnostics to show.
-/

namespace PrgScript

/-- The whole answer to a request to compile a script. -/
structure Compilation where
  file : File
  result : Except ScriptFailure Compiled
  context : Option Context := none
  bag : Bag := {}

namespace Bag

/-- Adds diagnostics in order, as far as they fit. -/
def addAll (bag : Bag) (ds : List Diagnostic) : Bag := ds.foldl add bag

end Bag

/-- Compiles a script under a limit on its diagnostics. After a success the diagnostics are sorted
by place; after a failure the error follows the warnings found before it, if it still fits. -/
def compile (file : File) (dialect : Option Dialect) (limit : Int) (name : Text) : Compilation :=
  let empty : Bag := { limit }
  match dialect with
  | none => { file, result := .error .unknownDialect, bag := empty }
  | some d =>
    let outcome := compileIn file d name {}
    let context := if d = .dbase then some outcome.context else none
    let bag := empty.addAll outcome.warnings
    match outcome.result with
    | .ok compiled => { file, result := .ok compiled, context, bag := bag.sort }
    | .error e => { file, result := .error (.script e), context, bag := bag.add e.diagnostic }

namespace Compilation

/-- How a compilation ended, in a few words. -/
def note (c : Compilation) : Text :=
  match c.result with
  | .ok compiled => "lines=" ++ Text.ofNat compiled.lines.length
  | .error _ => "failed"

/-- The name of the compiling step in traces and timings. -/
def passName : Text := "scan+parse"

/-- Whether a compilation got as far as reading the script. -/
def wasRead (c : Compilation) : Bool :=
  match c.result with
  | .error .unknownDialect => false
  | _ => true

/-- Records a compilation in a trace, as a span inside the span `parent`. -/
def trace (c : Compilation) (t : Trace.Tracer) (parent : Nat) : Trace.Tracer :=
  if c.wasRead then
    let (span, t) := t.beginSpan .pass passName parent
    match c.result with
    | .ok _ =>
      t.endSpan (span.withExtra "warnings" (Text.ofNat c.bag.items.length)) c.note
    | .error e => (t.endSpan span c.note).point .error "translate-failed" e.message
  else t

end Compilation

end PrgScript
