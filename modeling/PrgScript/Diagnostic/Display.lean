import PrgScript.Diagnostic.Bag
import PrgScript.Number.Word
import PrgScript.Source.FileSet
import PrgScript.Text.Json
import PrgScript.Text.Style
import PrgScript.Text.Width

/-!
# Showing diagnostics

Diagnostics are shown for a reader, each with the line it points to and a mark under
the place, or as a JSON document.
-/

namespace PrgScript

inductive PathMode where
  | stored
  | absolute
  | relative
  | baseName
deriving DecidableEq, Repr

namespace PathMode

/-- The mode with a code; an unknown one shows paths as they are stored. -/
def ofCode : Nat → PathMode
  | 1 => .absolute
  | 2 => .relative
  | 3 => .baseName
  | _ => .stored

end PathMode

/-- How paths are shown, with the working directory they start from. Relative paths start from
`base`, or from the working directory if that is empty. -/
structure PathDisplay where
  mode : PathMode := .stored
  base : Text := []
  workingDirectory : Text := []

namespace PathDisplay

def shownPath (d : PathDisplay) (path : Text) : Text :=
  match d.mode with
  | .stored => path
  | .absolute => Path.absolute d.workingDirectory path
  | .relative =>
    let base := if d.base = [] then d.workingDirectory else d.base
    (Path.relative? base (Path.absolute d.workingDirectory path)).getD path
  | .baseName => Path.base path

end PathDisplay

/-- How diagnostics are shown to a reader. `context` is the number of lines shown above the one a
diagnostic points to. -/
structure Display where
  colored : Bool := false
  paths : PathDisplay := {}
  context : Int := 0

namespace Display

def severityStyle (s : Severity) : List Text.Attribute :=
  if s = .error then [.red, .bold] else if s = .warning then [.yellow, .bold] else [.cyan]

def bar (d : Display) : Text := Text.paint d.colored [.blue] "|"

/-- Characters as they are shown in a line: a tab takes one column. -/
def untabbed (cs : List Char) : List Char := cs.map fun c => if c = '\t' then ' ' else c

/-- A line of a script with its number. -/
def sourceLine (d : Display) (width number : Nat) (line : Text) : Text :=
  Text.padLeft width (Text.ofNat number) ++ " " ++ d.bar ++ " " ++
    line.map (fun b => if b = 9 then 32 else b) ++ "\n"

/-- The column of the screen where a span starts and the mark under it. A span that goes on beyond
the line is cut at its end. Columns of a script count from one; column zero, where nothing stands,
is taken for the first. -/
def underline (line : Text) (start stop : LineCol) : Nat × Text :=
  let chars := Text.chars line
  let first := min (start.col - 1) chars.length
  let last := max first
    (if stop.line = start.line then min (stop.col - 1) chars.length else chars.length)
  let lead := Text.screenWidth (untabbed (chars.take first))
  let width := Text.screenWidth ((chars.drop first).take (last - first))
  (lead, Text.ofString "^" ++ List.replicate (width - 1) 126)

/-- Severity, code and message of a diagnostic. -/
def headline (d : Display) (diag : Diagnostic) : Text :=
  Text.paint d.colored (severityStyle diag.severity) diag.severity.name ++ " " ++
    Text.paint d.colored [.bold] diag.code.id ++ ": " ++ diag.message ++ "\n"

/-- The lines above a line that are shown with it, with their numbers. -/
def linesAbove (d : Display) (file : File) (number : Nat) : List (Nat × Text) :=
  let first := (max (Number.wrap (number - d.context)) 1).toNat
  (List.range' first (number - first)).map fun n => (n, file.line n)

/-- A diagnostic with the line it points to and a mark under the place. -/
def diagnostic (d : Display) (set : FileSet) (diag : Diagnostic) : Text :=
  match set.get? diag.span.file with
  | none => d.headline diag
  | some file =>
    let (start, stop) := set.resolve diag.span
    let width := (Text.ofNat start.line).length
    let line := file.line start.line
    let (lead, mark) := underline line start stop
    d.paths.shownPath file.path ++ ":" ++ Text.ofNat start.line ++ ":" ++
      Text.ofNat start.col ++ ": " ++ d.headline diag ++
      (d.linesAbove file start.line).flatMap (fun (n, line) => d.sourceLine width n line) ++
      d.sourceLine width start.line line ++
      Text.blanks width ++ " " ++ d.bar ++ " " ++ Text.blanks lead ++
      Text.paint d.colored [.green, .bold] mark ++ "\n"

def bag (d : Display) (set : FileSet) (bag : Bag) : Text := bag.items.flatMap (d.diagnostic set)

end Display

/-- How diagnostics are shown as a document. A positive `limit` is the most that are shown. -/
structure DocumentOptions where
  positions : Bool := false
  paths : PathDisplay := {}
  limit : Int := 0

namespace DocumentOptions

/-- A number as a field, left out if it is zero. -/
def countField (name : String) (n : Nat) : List (Text × Json) :=
  if n = 0 then [] else [Json.field name (.nat n)]

/-- The place of a span; without a known file only its range. -/
def location (o : DocumentOptions) (set : FileSet) (span : Span) : Json :=
  let range := [Json.field "start_byte" (.nat span.start), Json.field "end_byte" (.nat span.stop)]
  match set.get? span.file with
  | none => .record (Json.field "file" (.text []) :: range)
  | some file =>
    let (start, stop) := set.resolve span
    .record <|
      Json.field "file" (.text (o.paths.shownPath file.path)) :: range ++
        if o.positions then
          countField "start_line" start.line ++ countField "start_col" start.col ++
            countField "end_line" stop.line ++ countField "end_col" stop.col
        else []

def diagnostic (o : DocumentOptions) (set : FileSet) (d : Diagnostic) : Json :=
  .record [Json.field "severity" (.text d.severity.name), Json.field "code" (.text d.code.id),
    Json.field "title" (.text d.code.title), Json.field "message" (.text d.message),
    Json.field "location" (o.location set d.span)]

def shown (o : DocumentOptions) (ds : List Diagnostic) : List Diagnostic :=
  if 0 < o.limit then ds.take o.limit.toNat else ds

def document (o : DocumentOptions) (set : FileSet) (ds : List Diagnostic) : Text :=
  let ds := o.shown ds
  Json.document (.record [Json.field "diagnostics" (.list (ds.map (o.diagnostic set))),
    Json.field "count" (.nat ds.length)])

end DocumentOptions

end PrgScript
