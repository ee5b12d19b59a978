import PrgScript.Machine.Console
import PrgScript.Number.Word
import PrgScript.Text.Width

/-!
# Recording consoles

A recorder keeps every call made to it and a virtual screen. A wide character takes
two cells of the screen: the character itself and an empty cell behind it.
-/

namespace PrgScript

inductive ConsoleCall where
  | say (row col : Int) (text : Text)
  | print (text : Text)
  | color (colors : ColorPair)
deriving DecidableEq, Repr

/-- A console in memory: the calls made, the rows of the screen, and the place where the next text
goes. -/
structure Recorder where
  calls : Array ConsoleCall := #[]
  screen : List (List Char) := []
  row : Int := 0
  col : Int := 0

namespace Recorder

/-- The cell behind a wide character. -/
def emptyCell : Char := '\x00'

/-- The cells that a character takes: none for a character without width. -/
def cells (c : Char) : List Char :=
  match Text.charWidth c with
  | 0 => []
  | width + 1 => c :: List.replicate width emptyCell

/-- A row with cells written at a column over what was there; blanks fill a gap before them. -/
def overwrite (line : List Char) (col : Nat) (new : List Char) : List Char :=
  (line ++ List.replicate (col - line.length) ' ').take col ++ new ++ line.drop (col + new.length)

/-- The screen with at least the rows up to a number. -/
def grow (row : Int) (screen : List (List Char)) : List (List Char) :=
  screen ++ List.replicate ((row + 1).toNat - screen.length) []

/-- Writes characters without a line feed at the current place. Characters without width leave the
screen as it is. -/
def putLine (r : Recorder) (cs : List Char) : Recorder :=
  let shown := cs.filter fun c => 0 < Text.charWidth c
  if shown.isEmpty then r
  else
    { r with
      screen := (grow r.row r.screen).modify r.row.toNat
        (overwrite · r.col.toNat (shown.flatMap cells))
      col := Number.wrap (r.col + Text.total (shown.map Text.charWidth)) }

/-- Goes to the start of the next row. -/
def lineFeed (r : Recorder) : Recorder :=
  let row := Number.wrap (r.row + 1)
  { r with row, col := 0, screen := grow row r.screen }

/-- The stretches of characters between line feeds; there is at least one. -/
def stretches : List Char → List (List Char)
  | [] => [[]]
  | c :: cs =>
    match stretches cs with
    | [] => [[c]]
    | line :: lines => if c = '\n' then [] :: line :: lines else (c :: line) :: lines

/-- Writes stretches of characters from the current place on, each in a row of its own. -/
def putLines (r : Recorder) : List (List Char) → Recorder
  | [] => r
  | [line] => r.putLine line
  | line :: lines => (r.putLine line).lineFeed.putLines lines

def put (r : Recorder) (t : Text) : Recorder := r.putLines (stretches (Text.chars t))

def say (row col : Int) (t : Text) (r : Recorder) : Recorder :=
  { r with calls := r.calls.push (.say row col t), row, col }.put t

def print (t : Text) (r : Recorder) : Recorder :=
  { r with calls := r.calls.push (.print t) }.put t

def setColor (colors : ColorPair) (r : Recorder) : Recorder :=
  { r with calls := r.calls.push (.color colors) }

def console : Console Recorder where
  say row col t r := .ok (r.say row col t)
  print t r := .ok (r.print t)
  setColor colors r := .ok (r.setColor colors)

/-- The text of a call that prints at the current place. -/
def printed : ConsoleCall → Text
  | .print t => t
  | _ => []

/-- Everything printed at the current place, in order. -/
def output (r : Recorder) : Text := r.calls.toList.flatMap printed

/-- The text of a row: its characters without the blanks at its end. -/
def rowText (line : List Char) : Text :=
  let shown := (line.filter (· != emptyCell)).reverse.dropWhile (· == ' ')
  Text.ofChars shown.reverse

def rows (r : Recorder) : List Text := r.screen.map rowText

end Recorder

end PrgScript
