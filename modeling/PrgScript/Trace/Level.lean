import PrgScript.Text.Case
import PrgScript.Text.Quoted

/-!
# Trace levels

A trace level says how much of a run is recorded, a scope how fine an event is. Each
level lets through all scopes of the level below it.
-/

namespace PrgScript.Trace

/-- How much is recorded. -/
inductive Level where
  | off | error | phase | detail | debug | unknown
deriving DecidableEq, Repr

namespace Level

def ofCode : Nat → Level
  | 0 => .off
  | 1 => .error
  | 2 => .phase
  | 3 => .detail
  | 4 => .debug
  | _ => .unknown

def name : Level → String
  | .off => "off"
  | .error => "error"
  | .phase => "phase"
  | .detail => "detail"
  | .debug => "debug"
  | .unknown => "unknown"

/-- The level with a name in any letter case; without a name nothing is recorded. -/
def ofName? (name : Text) : Option Level :=
  let key := Text.lower name
  if key = [] then some .off
  else [Level.off, .error, .phase, .detail, .debug].find? fun l => Text.ofString l.name == key

def unknownName (name : Text) : Text :=
  "invalid trace level: " ++ Text.quote name ++ " (expected: off|error|phase|detail|debug)"

def isEnabled (l : Level) : Bool := l != .off

end Level

/-- How fine an event is; a smaller number is coarser. -/
structure Scope where
  code : Nat
deriving DecidableEq, Repr

namespace Scope

/-- A command. -/
def driver : Scope := ⟨1⟩
/-- A step of the work, such as loading or compiling. -/
def pass : Scope := ⟨2⟩
/-- One script. -/
def unit : Scope := ⟨3⟩
/-- One executed statement. -/
def stmt : Scope := ⟨4⟩
/-- A failure. -/
def error : Scope := ⟨5⟩

def name : Scope → String
  | ⟨1⟩ => "driver"
  | ⟨2⟩ => "pass"
  | ⟨3⟩ => "unit"
  | ⟨4⟩ => "stmt"
  | ⟨5⟩ => "error"
  | _ => "unknown"

end Scope

/-- Whether a level records events of a scope. Failures are recorded from the error level on. -/
def Level.emits (l : Level) (s : Scope) : Bool :=
  match l with
  | .off | .unknown => false
  | .error => s == .error
  | .phase => s.code ≤ Scope.pass.code || s == .error
  | .detail => s.code ≤ Scope.unit.code || s == .error
  | .debug => true

/-- The two ways to write events. -/
inductive Format where
  | text
  | json
deriving DecidableEq, Repr

namespace Format

def ofName? (name : Text) : Option Format :=
  let key := Text.lower name
  if key = [] || key = "text" then some .text
  else if key = "ndjson" || key = "json" then some .json
  else none

def unknownName (name : Text) : Text :=
  "invalid trace format: " ++ Text.quote name ++ " (expected: text|ndjson)"

end Format

end PrgScript.Trace
