import PrgScript.Source.FileSet
import PrgScript.Text.Quoted
import PrgScript.Token.Kind

/-!
# Tokens

A token is a lexical unit of a script with the exact text it was written with and the
place where it stands. The spans of a sequence of tokens can be checked against the
file they were read from.
-/

namespace PrgScript

/-- A lexical unit of a script. `value` is the content of a string literal, or `T` or `F` for a
logical literal; it is empty otherwise. -/
structure Token where
  kind : Kind
  text : Text := []
  value : Text := []
  line : Nat := 0
  col : Nat := 0
  span : Span := {}
deriving DecidableEq, Repr

namespace Token

/-- What a token is called in a message. -/
inductive Description where
  | endOfInput
  | endOfLine
  | reservedWord (text : Text)
  | lexeme (text : Text)
deriving DecidableEq, Repr

def Description.text : Description → Text
  | .endOfInput => "end of input"
  | .endOfLine => "end of line"
  | .reservedWord text => "reserved word " ++ text
  | .lexeme text => Text.quote text

def describe (tok : Token) : Description :=
  match tok.kind with
  | .eof => .endOfInput
  | .newline => .endOfLine
  | kind => if kind.isKeyword then .reservedWord tok.text else .lexeme tok.text

/-- Why the spans of a sequence of tokens do not fit their file. -/
inductive SpanFault where
  | noFile
  | otherFile (index : Nat) (kind : Kind) (got want : Nat)
  | outOfBounds (index : Nat) (kind : Kind) (span : Span) (length : Nat)
  | overlap (index : Nat) (kind : Kind) (span : Span) (previousEnd : Nat)
  | textMismatch (index : Nat) (kind : Kind) (text found : Text)
  | placeMismatch (index : Nat) (kind : Kind) (place found : LineCol)
deriving DecidableEq, Repr

def SpanFault.message : SpanFault → Text
  | .noFile => "nil file"
  | .otherFile index kind got want =>
    label index kind ++ "span points to different file id: got=" ++ Text.ofNat got ++ " want=" ++
      Text.ofNat want
  | .outOfBounds index kind span length =>
    label index kind ++ "span out of bounds: " ++ span.text ++ " (len=" ++ Text.ofNat length ++ ")"
  | .overlap index kind span previousEnd =>
    label index kind ++ "span " ++ span.text ++ " overlaps previous end " ++ Text.ofNat previousEnd
  | .textMismatch index kind text found =>
    label index kind ++ "text " ++ Text.quote text ++ " does not match source " ++ Text.quote found
  | .placeMismatch index kind place found =>
    label index kind ++ "position " ++ colon place ++ ", span resolves to " ++ colon found
where
  label (index : Nat) (kind : Kind) : Text :=
    "token[" ++ Text.ofNat index ++ "] " ++ kind.name ++ ": "
  colon (place : LineCol) : Text := Text.ofNat place.line ++ ":" ++ Text.ofNat place.col

/-- The first fault in the spans of the tokens from number `index` on, the ones before ending
at `previousEnd`. -/
def spanFaultFrom (file : File) (index previousEnd : Nat) : List Token → Option SpanFault
  | [] => none
  | tok :: toks =>
    let span := tok.span
    let length := file.content.length
    let found := (file.content.drop span.start).take (span.stop - span.start)
    let place := file.lineCol span.start
    if span.file ≠ file.id then some (.otherFile index tok.kind span.file file.id)
    else if span.stop < span.start ∨ length < span.stop then
      some (.outOfBounds index tok.kind span length)
    else if span.start < previousEnd then some (.overlap index tok.kind span previousEnd)
    else if found ≠ tok.text then some (.textMismatch index tok.kind tok.text found)
    else if place ≠ ⟨tok.line, tok.col⟩ then
      some (.placeMismatch index tok.kind ⟨tok.line, tok.col⟩ place)
    else spanFaultFrom file (index + 1) span.stop toks

/-- The first fault in the spans of a sequence of tokens: they lie in the file, in order and
apart from each other, and text, line and column are those of the place they point to. -/
def spanFault? (toks : List Token) : Option File → Option SpanFault
  | none => some .noFile
  | some file => spanFaultFrom file 0 0 toks

end Token

end PrgScript
