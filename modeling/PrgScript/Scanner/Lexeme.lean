import PrgScript.Diagnostic.Cause
import PrgScript.Dialect.Keyword
import PrgScript.Source.Cursor
import PrgScript.Text.Letter

/-!
# Lexemes

A lexeme is what one token is written with. Each function here is given the glyphs at
the front of the rest of a script and says how many of them the lexeme takes, what
kind of token it is, or what is wrong with it.
-/

namespace PrgScript.Scanner

/-- One lexeme. It takes its first glyph and `more` after it. A faulty one says at which of its
glyphs the error starts. -/
inductive Lexeme where
  | token (kind : Kind) (value : Text) (more : Nat)
  | fault (cause : Cause) (start more : Nat)

/-- Whether a character may start an identifier: a letter or an underscore. -/
def isIdentStart (c : Char) : Bool :=
  if c.toNat < 0x80 then c == '_' || c.isAlpha else Text.isLetter c

def isDigit (c : Char) : Bool := c.isDigit

def isIdentContinue (c : Char) : Bool := isIdentStart c || isDigit c

/-- The number of glyphs at the front whose characters satisfy `p`. -/
def run (p : Char → Bool) (gs : List Glyph) : Nat := (gs.takeWhile fun g => p g.char).length

/-- An identifier or a reserved word. -/
def identifier (d : Dialect) (g : Glyph) (rest : List Glyph) : Lexeme :=
  let more := run isIdentContinue rest
  let word := Glyph.text (g :: rest.take more)
  .token ((d.keyword? word).getD .ident) [] more

/-- A number: digits with an optional fraction, or a fraction alone. A point is part of the number
unless a letter follows it, and a letter right behind the number is an error. -/
def number (g : Glyph) (rest : List Glyph) : Lexeme :=
  let digits := run isDigit rest
  let more :=
    if g.char = '.' then digits
    else
      match rest.drop digits with
      | [] => digits
      | point :: after =>
        if point.char = '.' ∧ !(after.head?.any fun g => Text.isLetter g.char) then
          digits + 1 + run isDigit after
        else digits
  let after := rest.drop more
  if after.head?.any fun g => isIdentStart g.char then
    let total := more + run isIdentContinue after
    .fault (.malformedNumber (Glyph.text (g :: rest.take total))) 0 total
  else .token .number [] more

/-- The words that stand between dots, in upper case, with their kinds and values. -/
def dotWords : List (String × Kind × String) := [
  ("T", .logical, "T"), ("Y", .logical, "T"), ("F", .logical, "F"), ("N", .logical, "F"),
  ("AND", .and, ""), ("OR", .or, ""), ("NOT", .not, "")]

/-- A word between dots, or a dot alone if no such word stands there. -/
def dotWord (rest : List Glyph) : Lexeme :=
  let letters := run Text.isLetter rest
  let word := Text.upperASCII (Text.ofChars ((rest.take letters).map (·.char)))
  let closed := (rest.drop letters).head?.any fun g => g.char == '.'
  match dotWords.find? fun (known, _) => Text.ofString known == word with
  | some (_, kind, value) =>
    if 0 < letters ∧ closed then .token kind value (letters + 1) else .token .dot [] 0
  | none => .token .dot [] 0

def escape? : Char → Option Char
  | '\\' => some '\\'
  | 't' => some '\t'
  | 'n' => some '\n'
  | 'r' => some '\r'
  | 'a' => some '\x07'
  | '"' => some '"'
  | '\'' => some '\''
  | _ => none

/-- The rest of a string literal. `count` glyphs after the opening quote have been read, and
`value` holds the characters they stand for, the last one first. -/
def stringRest (d : Dialect) (quote : Char) (count : Nat) (value : List Char) :
    List Glyph → Lexeme
  | [] => .fault .unterminatedString 0 count
  | g :: rest =>
    if g.char = '\n' then .fault .unterminatedString 0 count
    else if g.char = quote then .token .string (Text.ofChars value.reverse) (count + 1)
    else if g.char ≠ '\\' ∨ !d.escapes then
      stringRest d quote (count + 1) (g.char :: value) rest
    else
      match rest with
      | [] => .fault .escapeAtLineEnd 0 (count + 1)
      | e :: rest =>
        if e.char = '\n' then .fault .escapeAtLineEnd 0 (count + 1)
        else if e.char = ' ' then .fault .escapeBeforeSpace 0 (count + 1)
        else
          match escape? e.char with
          | some c => stringRest d quote (count + 2) (c :: value) rest
          | none => .fault (.unknownEscape e.char) (count + 2) (count + 2)

/-- An operator or another single character; the longer operator wins. -/
def operator (c : Char) (next : Option Char) : Kind × Nat :=
  match c, next with
  | '=', some '=' => (.eqEq, 1)
  | '<', some '=' => (.ltEq, 1)
  | '<', some '>' => (.notEq, 1)
  | '>', some '=' => (.gtEq, 1)
  | '!', some '=' => (.notEq, 1)
  | ':', some '=' => (.colonAssign, 1)
  | '?', some '?' => (.questionQuestion, 1)
  | '+', _ => (.plus, 0)
  | '-', _ => (.minus, 0)
  | '*', _ => (.star, 0)
  | '/', _ => (.slash, 0)
  | '=', _ => (.eq, 0)
  | '<', _ => (.lt, 0)
  | '>', _ => (.gt, 0)
  | '#', _ => (.notEq, 0)
  | '(', _ => (.lParen, 0)
  | ')', _ => (.rParen, 0)
  | '[', _ => (.lBracket, 0)
  | ']', _ => (.rBracket, 0)
  | ',', _ => (.comma, 0)
  | '.', _ => (.dot, 0)
  | ':', _ => (.colon, 0)
  | ';', _ => (.semicolon, 0)
  | '@', _ => (.atSign, 0)
  | '?', _ => (.question, 0)
  | _, _ => (.char, 0)

def lexeme (d : Dialect) (g : Glyph) (rest : List Glyph) : Lexeme :=
  let c := g.char
  let next := rest.head?.map (·.char)
  if c = '\n' then .token .newline [] 0
  else if isIdentStart c then identifier d g rest
  else if isDigit c || (c == '.' && next.any isDigit) then number g rest
  else if c = '.' ∧ d.dotWords then dotWord rest
  else if d.isQuote c then stringRest d c 0 [] rest
  else if c = Text.replacement then .fault .invalidUtf8 0 0
  else
    let (kind, more) := operator c next
    .token kind [] more

end PrgScript.Scanner
