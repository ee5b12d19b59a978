import PrgScript.Builder.Error
import PrgScript.Diagnostic.Bag
import PrgScript.Dialect.Comment
import PrgScript.Token.Basic

/-!
# Errors in scripts

Everything that can be wrong with the text of a script, each cause with its code and
its wording. An error is a cause together with the place where it was found.
-/

namespace PrgScript

/-- A block of a script, by the word that opens it. -/
inductive Construct where
  | ifBlock
  | forBlock
  | doBlock
  | classBlock
deriving DecidableEq, Repr

def Construct.word : Construct → String
  | .ifBlock => "IF"
  | .forBlock => "FOR"
  | .doBlock => "DO WHILE"
  | .classBlock => "CLASS"

/-- What may be named by an identifier. -/
inductive NameRole where
  | parameter
  | localVariable
  | loopVariable
  | classRole
deriving DecidableEq, Repr

def NameRole.text : NameRole → String
  | .parameter => "parameter"
  | .localVariable => "variable"
  | .loopVariable => "loop variable"
  | .classRole => "class"

/-- What a statement needs at a place where something else was found. -/
inductive Wanted where
  | statement
  | nameOf (role : NameRole)
  | propertyName
  | assignAfter (name : Text)
  | assignAfterFor (name : Text)
  | assignAfterThis (name : Text)
  | colorAfterSet
  | toAfterSetColor
  | colorName
  | comma
  | sayWord
  | toWord
  | whileAfterDo
  | ofAfterClass (name : Text)
  | widget
  | dotAfterThis
  | expression
  | endOfLine
deriving DecidableEq, Repr

namespace Wanted

def text : Wanted → Text
  | .statement => "a statement"
  | .nameOf role => role.text ++ (" name" : Text)
  | .propertyName => "property name"
  | .assignAfter name => "'=' after " ++ name
  | .assignAfterFor name => "'=' after FOR " ++ name
  | .assignAfterThis name => "'=' after THIS." ++ name
  | .colorAfterSet => "COLOR after SET"
  | .toAfterSetColor => "TO after SET COLOR"
  | .colorName => "a colour name"
  | .comma => "',' between row and column"
  | .sayWord => "SAY"
  | .toWord => "TO"
  | .whileAfterDo => "WHILE after DO"
  | .ofAfterClass name => "OF after CLASS " ++ name
  | .widget => "FORM, CONTAINER, GRID, PUSHBUTTON, MEMO, TEXT or EDITFIELD"
  | .dotAfterThis => "'.' after THIS"
  | .expression => "an expression"
  | .endOfLine => "end of line"

def code : Wanted → Code
  | .statement | .assignAfter _ | .assignAfterFor _ | .assignAfterThis _ | .comma
  | .dotAfterThis => .unexpectedToken
  | .nameOf _ | .propertyName => .expectIdentifier
  | .colorAfterSet | .toAfterSetColor | .sayWord | .toWord | .whileAfterDo | .ofAfterClass _
  | .widget => .expectKeyword
  | .colorName => .unknownColor
  | .expression => .expectExpression
  | .endOfLine => .expectEndOfLine

end Wanted

/-- A word that closes or divides a block. -/
inductive Closing where
  | elseWord
  | endif
  | nextWord
  | enddo
  | endclass
deriving DecidableEq, Repr

namespace Closing

def construct : Closing → Construct
  | .elseWord | .endif => .ifBlock
  | .nextWord => .forBlock
  | .enddo => .doBlock
  | .endclass => .classBlock

/-- The code for a word that meets no such block. -/
def code : Closing → Code
  | .elseWord => .elseWithoutIf
  | .endif => .endifWithoutIf
  | .nextWord => .nextWithoutFor
  | .enddo => .enddoWithoutDo
  | .endclass => .endclassWithoutOpen

end Closing

/-- What can be wrong with a script. -/
inductive Cause where
  -- characters and tokens
  | invalidUtf8
  | foreignComment (form : CommentForm) (dialect : Dialect)
  | unterminatedComment
  | malformedNumber (text : Text)
  | unterminatedString
  | escapeAtLineEnd
  | escapeBeforeSpace
  | unknownEscape (char : Char)
  -- statements
  | noStatements (dialect : Dialect)
  | unexpected (wanted : Wanted) (found : Token.Description)
  | strayParen
  | notInClass (found : Token.Description)
  | keywordAssigned (word : Text)
  | cannotStart (found : Token.Description)
  | parameterTwice
  | parameterLate
  | keywordAsName (word : Text) (role : NameRole)
  | keywordInExpression (word : Text)
  | procedureCall (name : Text)
  | functionCall (name : Text)
  | unknownColor (name : Text)
  | unclosedParen (line col : Nat) (found : Token.Description)
  | unclosedClassParen (name base : Text)
  | classInside (construct : Construct) (line : Nat)
  | thisOutsideClass
  -- blocks
  | secondElse (line : Nat)
  | stillOpen (closing : Closing) (word : Text) (construct : Construct) (line : Nat)
  | withoutOpener (closing : Closing) (word : Text)
  | notClosed (construct : Construct) (line : Nat)
  | countMismatch (ifs endifs : Int)
  | buildRefused (error : BuildError)
  | buildUnfinished (error : BuildError)
deriving DecidableEq, Repr

namespace Cause

def code : Cause → Code
  | .invalidUtf8 => .unknownChar
  | .foreignComment .. => .foreignComment
  | .unterminatedComment => .unterminatedComment
  | .malformedNumber _ => .badNumber
  | .unterminatedString => .unterminatedString
  | .escapeAtLineEnd | .escapeBeforeSpace | .unknownEscape _ => .badEscape
  | .noStatements _ => .unsupportedDialect
  | .unexpected wanted _ => wanted.code
  | .strayParen => .parenUnderflow
  | .notInClass _ | .cannotStart _ | .thisOutsideClass | .buildRefused _ => .unexpectedToken
  | .keywordAssigned _ | .keywordAsName .. | .keywordInExpression _ => .keywordAsIdent
  | .parameterTwice | .parameterLate => .parameterPosition
  | .procedureCall _ | .functionCall _ => .unsupportedCall
  | .unknownColor _ => .unknownColor
  | .unclosedParen .. | .unclosedClassParen .. => .unclosedParen
  | .classInside .. => .nestedClass
  | .secondElse _ => .duplicateElse
  | .stillOpen closing .. | .withoutOpener closing _ => closing.code
  | .notClosed .. | .buildUnfinished _ => .unclosedBlock
  | .countMismatch .. => .ifCountMismatch

def detail : Cause → Text
  | .invalidUtf8 => "invalid UTF-8 sequence"
  | .foreignComment form dialect =>
    "comment " ++ Text.quote (Text.ofChars form.opener) ++ " not allowed in this dialect (" ++
      dialect.name ++ ")"
  | .unterminatedComment => "unterminated block comment"
  | .malformedNumber text => "malformed number " ++ Text.quote text
  | .unterminatedString => "unterminated string literal"
  | .escapeAtLineEnd => "escape at end of line"
  | .escapeBeforeSpace => "escape before a space"
  | .unknownEscape char => "unknown escape \\" ++ Text.ofChar char
  | .noStatements dialect => "no statement parser for dialect " ++ Text.ofString dialect.name
  | .unexpected wanted found => "expected " ++ wanted.text ++ ", got " ++ found.text
  | .strayParen => "')' without matching '('"
  | .notInClass found =>
    "expected THIS.<property> = <expr> or ENDCLASS inside CLASS, got " ++ found.text
  | .keywordAssigned word => "reserved word " ++ word ++ " cannot be assigned"
  | .cannotStart found => found.text ++ " cannot start a statement"
  | .parameterTwice => "PARAMETER declared twice"
  | .parameterLate => "PARAMETER must precede every other statement"
  | .keywordAsName word role =>
    "reserved word " ++ word ++ " cannot be used as a " ++ role.text ++ " name"
  | .keywordInExpression word => "reserved word " ++ word ++ " inside an expression"
  | .procedureCall name => "procedure calls are not supported: " ++ name ++ "("
  | .functionCall name => "function calls are not supported: " ++ name ++ "("
  | .unknownColor name => "unknown colour " ++ Text.quote name
  | .unclosedParen line col found =>
    "'(' on line " ++ Text.ofNat line ++ " column " ++ Text.ofNat col ++
      " is not closed before " ++ found.text
  | .unclosedClassParen name base => "expected ')' after CLASS " ++ name ++ " OF " ++ base ++ " ("
  | .classInside construct line =>
    "CLASS is not allowed inside " ++ construct.word ++ " (line " ++ Text.ofNat line ++ ")"
  | .thisOutsideClass => "THIS outside CLASS"
  | .secondElse line => "second ELSE for IF on line " ++ Text.ofNat line
  | .stillOpen _ word construct line =>
    word ++ " while " ++ construct.word ++ " from line " ++ Text.ofNat line ++ " is still open"
  | .withoutOpener closing word => word ++ " without " ++ closing.construct.word
  | .notClosed construct line =>
    construct.word ++ (" opened on line " : Text) ++ Text.ofNat line ++ " is not closed"
  | .countMismatch ifs endifs => Text.ofInt ifs ++ " IF but " ++ Text.ofInt endifs ++ " ENDIF"
  | .buildRefused error | .buildUnfinished error => error.message

end Cause

/-- An error in a script: its cause, the path of the script, and the place it was found. -/
structure ScriptError where
  cause : Cause
  file : Text
  line : Nat
  col : Nat
  span : Span
deriving DecidableEq, Repr

namespace ScriptError

def code (e : ScriptError) : Code := e.cause.code

/-- The wording of an error, without its place. -/
def detail (e : ScriptError) : Text := e.cause.detail

def kind (e : ScriptError) : ErrorKind := e.code.kind

/-- The wording of an error with its place. -/
def message (e : ScriptError) : Text := errorText e.file e.line e.col e.kind e.detail

def diagnostic (e : ScriptError) : Diagnostic := ⟨.error, e.code, e.detail, e.span⟩

end ScriptError

end PrgScript
