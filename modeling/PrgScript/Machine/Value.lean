import PrgScript.Program.Expr

/-!
# Values

The values that scripts compute with. A host may pass a value of no kind; it equals
nothing, not even itself.
-/

namespace PrgScript

inductive Value where
  | number (value : Float)
  | string (value : Text)
  | logical (value : Bool)
  | invalid
deriving Inhabited

inductive ValueKind where
  | numeric | character | logical | invalid
deriving DecidableEq, Repr

def ValueKind.name : ValueKind → String
  | .numeric => "numeric"
  | .character => "character"
  | .logical => "logical"
  | .invalid => "invalid"

namespace Value

/-- The value that every declared variable starts with. -/
def initial : Value := .logical false

def kind : Value → ValueKind
  | .number _ => .numeric
  | .string _ => .character
  | .logical _ => .logical
  | .invalid => .invalid

/-- A value as the console prints it. -/
def text : Value → Text
  | .number value => Number.format value
  | .string value => value
  | .logical value => logicalText value
  | .invalid => "NIL"

def equal : Value → Value → Bool
  | .number a, .number b => a == b
  | .string a, .string b => a == b
  | .logical a, .logical b => a == b
  | _, _ => false

/-- Equality that takes a string for equal to each of its beginnings. -/
def looselyEqual : Value → Value → Bool
  | .string a, .string b => b.isPrefixOf a
  | a, b => a.equal b

end Value

end PrgScript
