import PrgScript.Diagnostic.Code
import PrgScript.Machine.Value

/-!
# Faults of a running script

Everything that can stop a running script, each cause with its code and its wording.
-/

namespace PrgScript

/-- A condition, by the word that needs it. -/
inductive ConditionOf where
  | ifWord | doWhile | operator (op : Op)
deriving DecidableEq, Repr

def ConditionOf.text : ConditionOf → String
  | .ifWord => "IF"
  | .doWhile => "DO WHILE"
  | .operator op => op.text

/-- A place that needs a number. -/
inductive NumberFor where
  | forStart | forLimit | forStep
  | forCounter (name : Text)
  | negated | plus
  | sayRow | sayColumn
deriving DecidableEq, Repr

def NumberFor.text : NumberFor → Text
  | .forStart => "FOR start"
  | .forLimit => "FOR limit"
  | .forStep => "STEP"
  | .forCounter name => "FOR variable " ++ name
  | .negated => "operand of unary -"
  | .plus => "operand of unary +"
  | .sayRow => "SAY row"
  | .sayColumn => "SAY column"

/-- What can stop a running script. -/
inductive ExecCause where
  | badProgram (fault : Malformed)
  | noConsole
  | tooManyArguments (program : Text) (params args : Nat)
  | undefinedVariable (name : Text)
  | undeclaredClass (name : Text)
  | notLogical (condition : ConditionOf) (kind : ValueKind)
  | notNumeric (place : NumberFor) (kind : ValueKind)
  | badPosition (place : NumberFor) (value : Text)
  | mismatch (op : Op) (left right : ValueKind)
  | divisionByZero
  | zeroStep (counter : Text)
  | unknownUnary (op : Op)
  | unknownBinary (op : Op)
  | unknownExpression (kind : Nat)
  | unknownStatement (kind : Nat)
  /-- An operand that is not there was asked for. -/
  | missingOperand
  /-- The content of a statement that is not there was asked for. -/
  | missingContent
  | consoleFailed (message : Text)

namespace ExecCause

def code : ExecCause → Code
  | .badProgram _ => .badArtifact
  | .noConsole | .unknownUnary _ | .unknownBinary _ | .unknownExpression _ | .unknownStatement _
  | .missingOperand | .missingContent | .consoleFailed _ => .internalFault
  | .tooManyArguments .. | .notLogical .. | .notNumeric .. | .badPosition .. | .mismatch .. =>
    .typeMismatch
  | .undefinedVariable _ | .undeclaredClass _ => .undefinedVar
  | .divisionByZero => .divByZero
  | .zeroStep _ => .zeroStep

def detail : ExecCause → Text
  | .badProgram fault => fault.message
  | .noConsole => "nil console"
  | .tooManyArguments program params args =>
    program ++ " takes " ++ Text.ofNat params ++ " parameters, got " ++ Text.ofNat args
  | .undefinedVariable name => "variable " ++ name ++ " is not defined"
  | .undeclaredClass name => "class " ++ name ++ " is not declared"
  | .notLogical condition kind =>
    condition.text ++ (" condition must be logical, got " : Text) ++ kind.name
  | .notNumeric place kind => place.text ++ " must be numeric, got " ++ kind.name
  | .badPosition place value => place.text ++ " must be a non-negative integer, got " ++ value
  | .mismatch op left right =>
    "operator " ++ Text.ofString op.text ++ ": " ++ left.name ++ " and " ++ right.name
  | .divisionByZero => "division by zero"
  | .zeroStep counter => "STEP 0 never ends the loop over " ++ counter
  | .unknownUnary op => "unknown unary operator " ++ Text.ofString op.text
  | .unknownBinary op => "unknown binary operator " ++ Text.ofString op.text
  | .unknownExpression kind => "unknown expression kind " ++ Text.ofNat kind
  | .unknownStatement kind => "unknown statement kind " ++ Text.ofNat kind
  | .missingOperand | .missingContent =>
    "runtime error: invalid memory address or nil pointer dereference"
  | .consoleFailed message => message

end ExecCause

/-- A fault of a running script at a line, which is zero if it belongs to none. -/
structure ExecError where
  cause : ExecCause
  line : Nat := 0

namespace ExecError

def code (e : ExecError) : Code := e.cause.code

def detail (e : ExecError) : Text := e.cause.detail

/-- The wording of a fault with its line, if it has one. -/
def message (e : ExecError) : Text :=
  Text.onlyIf (e.line ≠ 0) ("line " ++ Text.ofNat e.line ++ ": ") ++
    e.code.id ++ ": ExecutionError: " ++ e.detail

end ExecError

end PrgScript
