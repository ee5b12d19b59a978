import PrgScript.Scanner.Lexeme
import PrgScript.Scanner.Trivia

/-!
# Scanning

Scanning a script gives its tokens one at a time, with blanks and comments left out.
An error takes the place of a token, and scanning can go on behind it. At the end of
the script there is an end token, again and again. A lexer adds one token of
lookahead.
-/

namespace PrgScript

/-- What one step of scanning gives: a token and, if the script is wrong there, the error. The
token that comes with an error is invalid, empty, and stands where scanning goes on. -/
structure Scanned where
  token : Token
  error : Option ScriptError := none
deriving DecidableEq, Repr

namespace Scanner

def tokenBetween (file : File) (kind : Kind) (value : Text) (length : Nat) (start stop : Cursor) :
    Token where
  kind := kind
  text := Glyph.text (start.rest.take length)
  value := value
  line := start.pos.line
  col := start.pos.col
  span := ⟨file.id, start.pos.offset, stop.pos.offset⟩

def failed (file : File) (cause : Cause) (start stop : Cursor) : Scanned where
  token :=
    { kind := .invalid, line := stop.pos.line, col := stop.pos.col
      span := ⟨file.id, stop.pos.offset, stop.pos.offset⟩ }
  error := some
    { cause, file := file.path, line := start.pos.line, col := start.pos.col
      span := ⟨file.id, start.pos.offset, stop.pos.offset⟩ }

/-- One step of scanning: the next token or error, and the cursor behind it. -/
def scan (file : File) (d : Dialect) (c : Cursor) : Scanned × Cursor :=
  match skipTrivia d .between 0 c.rest with
  | .fault before more cause =>
    let start := c.skip before
    let stop := c.skip (before + more + 1)
    (failed file cause start stop, stop)
  | .clear count =>
    let start := c.skip count
    match start.rest with
    | [] => (⟨tokenBetween file .eof [] 0 start start, none⟩, start)
    | g :: rest =>
      match lexeme d g rest with
      | .token kind value more =>
        let stop := start.skip (more + 1)
        (⟨tokenBetween file kind value (more + 1) start stop, none⟩, stop)
      | .fault cause at_ more =>
        let stop := start.skip (more + 1)
        (failed file cause (start.skip at_) stop, stop)

end Scanner

/-- A scanner over a script with one token of lookahead. -/
structure Lexer where
  file : File
  dialect : Dialect
  cursor : Cursor
  ahead : Option Scanned := none

namespace Lexer

def start (file : File) (d : Dialect) : Lexer := ⟨file, d, Cursor.ofText file.content, none⟩

/-- The message for a script in no known dialect. -/
def unsupported : Text := "lexer: unsupported dialect unknown"

def next (lx : Lexer) : Scanned × Lexer :=
  match lx.ahead with
  | some scanned => (scanned, { lx with ahead := none })
  | none =>
    let (scanned, cursor) := Scanner.scan lx.file lx.dialect lx.cursor
    (scanned, { lx with cursor })

/-- The next token or error, which stays ahead. -/
def peek (lx : Lexer) : Scanned × Lexer :=
  match lx.ahead with
  | some scanned => (scanned, lx)
  | none =>
    let (scanned, cursor) := Scanner.scan lx.file lx.dialect lx.cursor
    (scanned, { lx with cursor, ahead := some scanned })

end Lexer

/-- How a token sequence ends: with the end token of the script, or with an error. -/
inductive Ending where
  | eof (token : Token)
  | error (error : ScriptError) (invalid : Token)
deriving DecidableEq, Repr

/-- The tokens of a script up to its end or its first error. -/
structure TokenStream where
  tokens : List Token
  ending : Ending
deriving DecidableEq, Repr

namespace TokenStream

/-- The tokens, the end token included if the script ends without an error. -/
def all (s : TokenStream) : List Token :=
  match s.ending with
  | .eof token => s.tokens ++ [token]
  | .error .. => s.tokens

/-- Scans from a cursor up to the end or the first error; `fuel` bounds the number of tokens. -/
def scanFrom (file : File) (d : Dialect) : Nat → Cursor → TokenStream
  | 0, c => ⟨[], .eof (Scanner.tokenBetween file .eof [] 0 c c)⟩
  | fuel + 1, c =>
    match Scanner.scan file d c with
    | (⟨token, some error⟩, _) => ⟨[], .error error token⟩
    | (⟨token, none⟩, c') =>
      if token.kind = .eof then ⟨[], .eof token⟩
      else
        let s := scanFrom file d fuel c'
        { s with tokens := token :: s.tokens }

/-- The tokens of a script. Every token takes at least one glyph, so a script has at most as many
tokens as glyphs. -/
def ofFile (file : File) (d : Dialect) : TokenStream :=
  let c := Cursor.ofText file.content
  scanFrom file d (c.rest.length + 1) c

end TokenStream

end PrgScript
