import PrgScript.Diagnostic.Code
import PrgScript.Source.Span

/-!
# Diagnostics

A diagnostic is a problem to show: its severity, code, message and place. Diagnostics
are collected in a bag, which may have a limit.
-/

namespace PrgScript

/-- How bad a problem is; larger is worse. -/
structure Severity where
  level : Nat
deriving DecidableEq, Repr, Inhabited

namespace Severity

def info : Severity := ⟨0⟩
def warning : Severity := ⟨1⟩
def error : Severity := ⟨2⟩

def name : Severity → String
  | ⟨0⟩ => "INFO"
  | ⟨1⟩ => "WARNING"
  | ⟨2⟩ => "ERROR"
  | _ => "UNKNOWN"

end Severity

structure Diagnostic where
  severity : Severity
  code : Code
  message : Text
  span : Span
deriving DecidableEq, Repr

/-- A collection of diagnostics in the order they were found. A positive limit is the most that
can be added. -/
structure Bag where
  limit : Int := 0
  items : List Diagnostic := []

namespace Bag

def isFull (bag : Bag) : Bool := 0 < bag.limit && bag.limit ≤ bag.items.length

/-- Adds a diagnostic unless the bag is full. -/
def add (bag : Bag) (d : Diagnostic) : Bag :=
  if bag.isFull then bag else { bag with items := bag.items ++ [d] }

/-- Adds all diagnostics of another bag, whatever the limit. -/
def merge (bag other : Bag) : Bag := { bag with items := bag.items ++ other.items }

def hasErrors (bag : Bag) : Bool := bag.items.any (Severity.error.level ≤ ·.severity.level)

/-- Whether some diagnostic is at least a warning. -/
def hasWarnings (bag : Bag) : Bool := bag.items.any (Severity.warning.level ≤ ·.severity.level)

/-- Whether a diagnostic may stand before another: by file, then by start, the worse one first,
then by code. -/
def notAfter (d e : Diagnostic) : Bool :=
  if d.span.file ≠ e.span.file then d.span.file < e.span.file
  else if d.span.start ≠ e.span.start then d.span.start < e.span.start
  else if d.severity ≠ e.severity then e.severity.level < d.severity.level
  else d.code.number ≤ e.code.number

/-- Sorts the diagnostics by place; equal ones keep their order. -/
def sort (bag : Bag) : Bag := { bag with items := bag.items.mergeSort notAfter }

end Bag

end PrgScript
