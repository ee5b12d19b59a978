import PrgScript.Text.Basic

/-!
# Codes of diagnostics

Every problem has a numeric code. Its hundreds place it in a family (lexical,
syntactic, block structure, execution, input and output) and thereby in one of four
kinds of error.
-/

namespace PrgScript

structure Code where
  number : Nat
deriving DecidableEq, Repr, Inhabited

namespace Code

def unknownError : Code := ⟨0⟩
def lexicalInfo : Code := ⟨1000⟩
def unknownChar : Code := ⟨1001⟩
def unterminatedString : Code := ⟨1002⟩
def unterminatedComment : Code := ⟨1003⟩
def badNumber : Code := ⟨1004⟩
def foreignComment : Code := ⟨1005⟩
def badEscape : Code := ⟨1006⟩
def syntacticInfo : Code := ⟨2000⟩
def unexpectedToken : Code := ⟨2001⟩
def expectIdentifier : Code := ⟨2002⟩
def keywordAsIdent : Code := ⟨2003⟩
def unclosedParen : Code := ⟨2004⟩
def parenUnderflow : Code := ⟨2005⟩
def expectExpression : Code := ⟨2006⟩
def expectKeyword : Code := ⟨2007⟩
def unknownColor : Code := ⟨2008⟩
def parameterPosition : Code := ⟨2009⟩
def expectEndOfLine : Code := ⟨2010⟩
def nestedClass : Code := ⟨2011⟩
def unsupportedDialect : Code := ⟨2012⟩
def unsupportedCall : Code := ⟨2013⟩
def nextVarMismatch : Code := ⟨2101⟩
def localRedeclared : Code := ⟨2102⟩
def blockInfo : Code := ⟨2500⟩
def endifWithoutIf : Code := ⟨2501⟩
def elseWithoutIf : Code := ⟨2502⟩
def duplicateElse : Code := ⟨2503⟩
def nextWithoutFor : Code := ⟨2504⟩
def enddoWithoutDo : Code := ⟨2505⟩
def endclassWithoutOpen : Code := ⟨2506⟩
def unclosedBlock : Code := ⟨2507⟩
def ifCountMismatch : Code := ⟨2508⟩
def executionInfo : Code := ⟨4000⟩
def typeMismatch : Code := ⟨4001⟩
def undefinedVar : Code := ⟨4002⟩
def divByZero : Code := ⟨4003⟩
def zeroStep : Code := ⟨4004⟩
def internalFault : Code := ⟨4005⟩
def badArtifact : Code := ⟨4006⟩
def fileInfo : Code := ⟨5000⟩
def unreadableFile : Code := ⟨5001⟩
def cacheFile : Code := ⟨5002⟩

def titles : List (Code × String) := [
  (unknownError, "Unknown error"),
  (lexicalInfo, "Lexical information"),
  (unknownChar, "Unknown character"),
  (unterminatedString, "Unterminated string literal"),
  (unterminatedComment, "Unterminated block comment"),
  (badNumber, "Malformed number literal"),
  (foreignComment, "Comment not allowed in this dialect"),
  (badEscape, "Invalid escape sequence"),
  (syntacticInfo, "Syntax information"),
  (unexpectedToken, "Unexpected token"),
  (expectIdentifier, "Expected identifier"),
  (keywordAsIdent, "Reserved word used as identifier"),
  (unclosedParen, "Unclosed parenthesis"),
  (parenUnderflow, "Unmatched closing parenthesis"),
  (expectExpression, "Expected expression"),
  (expectKeyword, "Expected keyword"),
  (unknownColor, "Unknown color name"),
  (parameterPosition, "PARAMETER must be the first statement"),
  (expectEndOfLine, "Expected end of line"),
  (nestedClass, "CLASS inside a block"),
  (unsupportedDialect, "Dialect has no parser"),
  (unsupportedCall, "Function calls are not supported"),
  (nextVarMismatch, "NEXT variable does not match FOR"),
  (localRedeclared, "Variable declared twice"),
  (blockInfo, "Block structure information"),
  (endifWithoutIf, "ENDIF without IF"),
  (elseWithoutIf, "ELSE without IF"),
  (duplicateElse, "Second ELSE in one IF"),
  (nextWithoutFor, "NEXT without FOR"),
  (enddoWithoutDo, "ENDDO without DO WHILE"),
  (endclassWithoutOpen, "ENDCLASS without CLASS"),
  (unclosedBlock, "Block not closed"),
  (ifCountMismatch, "IF/ENDIF count mismatch"),
  (executionInfo, "Execution information"),
  (typeMismatch, "Type mismatch"),
  (undefinedVar, "Variable not found"),
  (divByZero, "Division by zero"),
  (zeroStep, "FOR STEP is zero"),
  (internalFault, "Internal execution fault"),
  (badArtifact, "Compiled artifact is not loadable"),
  (fileInfo, "I/O information"),
  (unreadableFile, "Cannot read script"),
  (cacheFile, "Cannot access compilation cache")]

def title (c : Code) : String := ((titles.find? (·.1 == c)).map (·.2)).getD "Unknown error"

/-- The identifier of a code: the letters of its family and its number. -/
def id (c : Code) : Text :=
  let n := c.number
  let digits := Text.padZero 4 (Text.ofNat n)
  if 1000 ≤ n ∧ n < 2000 then "LEX" ++ digits
  else if 2000 ≤ n ∧ n < 2500 then "SYN" ++ digits
  else if 2500 ≤ n ∧ n < 3000 then "BLK" ++ digits
  else if 4000 ≤ n ∧ n < 5000 then "EXE" ++ digits
  else if 5000 ≤ n ∧ n < 6000 then "IO" ++ digits
  else "E0000"

def text (c : Code) : Text := "[" ++ c.id ++ "]: " ++ c.title

end Code

inductive ErrorKind where
  | syntactic
  | keywordMisuse
  | structural
  | execution
deriving DecidableEq, Repr

namespace ErrorKind

/-- The kind with a code, counted from one. -/
def ofCode? : Nat → Option ErrorKind
  | 1 => some .syntactic
  | 2 => some .keywordMisuse
  | 3 => some .structural
  | 4 => some .execution
  | _ => none

def name : ErrorKind → String
  | .syntactic => "SyntaxError"
  | .keywordMisuse => "KeywordMisuseError"
  | .structural => "StructuralImbalanceError"
  | .execution => "ExecutionError"

def phrase : ErrorKind → String
  | .syntactic => "syntax error"
  | .keywordMisuse => "keyword misuse"
  | .structural => "structural imbalance"
  | .execution => "execution error"

end ErrorKind

/-- The kind of error that a code belongs to. -/
def Code.kind (c : Code) : ErrorKind :=
  if c = Code.keywordAsIdent then .keywordMisuse
  else if 2500 ≤ c.number ∧ c.number < 3000 then .structural
  else if 4000 ≤ c.number ∧ c.number < 5000 then .execution
  else .syntactic

/-- The text of a positioned error: with its file and column if a file is known, else with its
line only. -/
def errorText (file : Text) (line col : Nat) (kind : ErrorKind) (detail : Text) : Text :=
  if file = [] then "line " ++ Text.ofNat line ++ ": " ++ kind.name ++ ": " ++ detail
  else
    file ++ ":" ++ Text.ofNat line ++ ":" ++ Text.ofNat col ++ ": " ++ kind.name ++ ": " ++ detail

end PrgScript
