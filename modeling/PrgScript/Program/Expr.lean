import PrgScript.Number.Shortest
import PrgScript.Program.Op
import PrgScript.Text.Quoted

/-!
# Expressions

Expression trees and their listing text. A tree read back from disk may lack operands
or carry a kind that no expression has; such a tree can still be listed, and checking
it tells what is wrong.
-/

namespace PrgScript

/-- An expression; `line` is the line of the script it stands on. -/
inductive Expr where
  | number (value : Float) (line : Nat)
  | string (value : Text) (line : Nat)
  | logical (value : Bool) (line : Nat)
  | ident (name : Text) (line : Nat)
  | unary (op : Op) (operand : Expr) (line : Nat)
  | binary (op : Op) (left right : Expr) (line : Nat)
  | missing
  | malformed (kind : Nat) (line : Nat)
deriving DecidableEq, Inhabited

def logicalText (b : Bool) : Text := if b then ".T." else ".F."

/-- What is wrong with an expression or statement read back from disk. -/
inductive Malformed where
  | noProgram
  | invalidBase (className : Text) (base : Text)
  | noPayload (line : Nat) (kind : String)
  | unknownStatement (line kind : Nat)
  | noOperand (op : Op)
  | noOperands (op : Op)
  | unknownExpression (kind : Nat)

def Malformed.message (fault : Malformed) : Text :=
  "malformed program: " ++
    match fault with
    | .noProgram => Text.ofString "nil unit"
    | .invalidBase className base => "class " ++ className ++ " has invalid base " ++ base
    | .noPayload line kind =>
      "line " ++ Text.ofNat line ++ ": " ++ kind ++ " statement without payload"
    | .unknownStatement line kind =>
      "line " ++ Text.ofNat line ++ ": unknown statement kind " ++ Text.ofNat kind
    | .noOperand op => "unary " ++ op.text ++ " without operand"
    | .noOperands op => "binary " ++ op.text ++ " without operands"
    | .unknownExpression kind => "unknown expression kind " ++ Text.ofNat kind

namespace Expr

def line : Expr → Nat
  | .number _ line | .string _ line | .logical _ line | .ident _ line | .unary _ _ line
  | .binary _ _ _ line | .malformed _ line => line
  | .missing => 0

/-- The expression without content. -/
def zero : Expr := .malformed 0 0

def isConst : Expr → Bool
  | .number .. | .string .. | .logical .. => true
  | _ => false

def isMissing : Expr → Bool
  | .missing => true
  | _ => false

/-- Parentheses around a text that needs them. -/
def parenthesize (need : Bool) (t : Text) : Text := if need then "(" ++ t ++ ")" else t

/-- The text of an expression inside an operator that binds with precedence `outer`. Binary
operators group to the left, so a right operand of the same precedence takes parentheses. -/
def textIn (outer : Nat) : Expr → Text
  | .number value _ => Number.format value
  | .string value _ => Text.quote value
  | .logical value _ => logicalText value
  | .ident name _ => name
  | .unary op operand _ =>
    parenthesize (op.precedence < outer)
      (op.text ++ Text.onlyIf (op = .not) " " ++ operand.textIn (op.precedence + 1))
  | .binary op left right _ =>
    parenthesize (op.precedence < outer)
      (left.textIn op.precedence ++ " " ++ op.text ++ " " ++ right.textIn (op.precedence + 1))
  | .missing => []
  | .malformed .. => "<invalid>"

/-- The listing text of an expression, with as few parentheses as possible. -/
def text (e : Expr) : Text := e.textIn 0

/-- The first fault of an expression: an operator without its operands or an unknown kind. -/
def fault? : Expr → Option Malformed
  | .number .. | .string .. | .logical .. | .ident .. => none
  | .unary op operand _ =>
    if operand.isMissing then some (.noOperand op) else operand.fault?
  | .binary op left right _ =>
    if left.isMissing || right.isMissing then some (.noOperands op)
    else left.fault?.or right.fault?
  | .missing => some (.unknownExpression 0)
  | .malformed kind _ => some (.unknownExpression kind)

end Expr

end PrgScript
