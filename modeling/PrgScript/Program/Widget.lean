import PrgScript.Program.Expr
import PrgScript.Token.Kind

/-!
# Widgets

The kinds of screen objects that a declared class may extend, and the properties that
every object of a kind starts with.
-/

namespace PrgScript

/-- The kind of screen object that a class extends. -/
inductive Widget where
  | form | container | grid | pushButton | memo | text | editField
  | unknown (code : UInt8)
deriving DecidableEq, Repr

namespace Widget

/-- The kinds in the order of their codes, which start at one. -/
def all : List Widget := [.form, .container, .grid, .pushButton, .memo, .text, .editField]

def ofCode (code : UInt8) : Widget :=
  match code.toNat with
  | 0 => .unknown code
  | n + 1 => (all[n]?).getD (.unknown code)

def code : Widget → UInt8
  | .form => 1
  | .container => 2
  | .grid => 3
  | .pushButton => 4
  | .memo => 5
  | .text => 6
  | .editField => 7
  | .unknown code => code

def name : Widget → Text
  | .form => "Form"
  | .container => "Container"
  | .grid => "Grid"
  | .pushButton => "PushButton"
  | .memo => "Memo"
  | .text => "Text"
  | .editField => "EditField"
  | .unknown code => "Widget(" ++ Text.ofNat code.toNat ++ ")"

/-- Whether a kind is one of the declared ones. -/
def isValid : Widget → Bool
  | .unknown _ => false
  | _ => true

/-- The kind that a reserved word names. -/
def ofKeyword? : Kind → Option Widget
  | .keyword .kwForm => some .form
  | .keyword .kwContainer => some .container
  | .keyword .kwGrid => some .grid
  | .keyword .kwPushbutton => some .pushButton
  | .keyword .kwMemo => some .memo
  | .keyword .kwText => some .text
  | .keyword .kwEditfield => some .editField
  | _ => none

def countProperty (name : String) (n : Nat) : Text × Expr :=
  (Text.ofString name, .number (Float.ofNat n) 0)

def textProperty (name value : String) : Text × Expr :=
  (Text.ofString name, .string (Text.ofString value) 0)

/-- The properties that every object of a kind starts with. -/
def defaults : Widget → List (Text × Expr)
  | .form => [textProperty "text" "", countProperty "top" 0, countProperty "left" 0,
      countProperty "height" 25, countProperty "width" 80]
  | .container => [countProperty "top" 0, countProperty "left" 0, countProperty "height" 10,
      countProperty "width" 40]
  | .grid => [countProperty "top" 0, countProperty "left" 0, countProperty "rows" 0,
      countProperty "columns" 0]
  | .pushButton => [textProperty "text" "OK", countProperty "top" 0, countProperty "left" 0,
      countProperty "width" 10]
  | .memo => [textProperty "value" "", countProperty "top" 0, countProperty "left" 0,
      countProperty "height" 5, countProperty "width" 40]
  | .text => [textProperty "text" "", countProperty "top" 0, countProperty "left" 0]
  | .editField => [textProperty "value" "", countProperty "top" 0, countProperty "left" 0,
      countProperty "width" 20]
  | .unknown _ => []

end Widget

end PrgScript
