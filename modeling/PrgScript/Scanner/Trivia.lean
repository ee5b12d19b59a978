import PrgScript.Diagnostic.Cause
import PrgScript.Source.Cursor

/-!
# Blanks and comments

Between two tokens stand blanks and comments. A line comment runs up to the end of its
line, a block comment up to its first closing mark. A comment of another dialect is an
error, and so is a block comment that is not closed.
-/

namespace PrgScript.Scanner

/-- The characters that separate tokens in every dialect. -/
def isBlank (c : Char) : Bool :=
  c == ' ' || c == '\t' || c == '\r' || c == '\x0c' || c == '\x0b'

def opensWith (form : CommentForm) (c : Char) (next : Option Char) : Bool :=
  form.first == c &&
    match form.second? with
    | some second => next == some second
    | none => true

/-- The comment shape, allowed or refused, that opens with a character and the one after it. -/
def commentAt? (d : Dialect) (c : Char) (next : Option Char) : Option CommentForm :=
  d.commentForms.find? (opensWith · c next)

/-- Where skipping stands: between comments, in a line comment, or in a block comment of a given
shape that started at a given glyph. -/
inductive SkipMode where
  | between
  | inLine
  | inBlock (form : CommentForm) (start : Nat)

/-- The outcome of skipping: how many glyphs were skipped, or how many stand before a faulty
comment and how many of its glyphs after the first were read. -/
inductive Skipped where
  | clear (count : Nat)
  | fault (before more : Nat) (cause : Cause)

/-- Skips blanks and comments; `count` glyphs have been skipped so far. -/
def skipTrivia (d : Dialect) : SkipMode → Nat → List Glyph → Skipped
  | .between, count, [] => .clear count
  | .inLine, count, [] => .clear count
  | .inBlock _ start, count, [] => .fault start (count - start - 1) .unterminatedComment
  | .between, count, g :: rest =>
    if g.char = '\n' then
      if d.newlineSignificant then .clear count else skipTrivia d .between (count + 1) rest
    else if isBlank g.char then skipTrivia d .between (count + 1) rest
    else
      match commentAt? d g.char (rest.head?.map (·.char)) with
      | none => .clear count
      | some form =>
        if d.usage form = .foreign then
          .fault count (form.opener.length - 1) (.foreignComment form d)
        else
          let mode : SkipMode := if form.isBlock then .inBlock form count else .inLine
          match form.second?, rest with
          | some _, _ :: rest => skipTrivia d mode (count + 2) rest
          | _, rest => skipTrivia d mode (count + 1) rest
  | .inLine, count, g :: rest =>
    if g.char = '\n' then
      if d.newlineSignificant then .clear count else skipTrivia d .between (count + 1) rest
    else skipTrivia d .inLine (count + 1) rest
  | .inBlock form start, count, g :: rest =>
    match form.closer, rest with
    | [c, c'], g' :: rest =>
      if g.char = c ∧ g'.char = c' then skipTrivia d .between (count + 2) rest
      else skipTrivia d (.inBlock form start) (count + 1) (g' :: rest)
    | [c], rest =>
      if g.char = c then skipTrivia d .between (count + 1) rest
      else skipTrivia d (.inBlock form start) (count + 1) rest
    | _, rest => skipTrivia d (.inBlock form start) (count + 1) rest

end PrgScript.Scanner
