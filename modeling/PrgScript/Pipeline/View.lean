import PrgScript.Pipeline.Event
import PrgScript.Text.Column

/-!
# Progress views

A progress view lists the scripts of a run with the state of each, under a title and
above a bar. It is kept up to date by what the run tells. A path that is listed more
than once stands for its last row.
-/

namespace PrgScript

structure ProgressRow where
  path : Text
  label : Text := "queued"
  stage : Stage := .unknown
  /-- Whether the script has come to its end, by success or by failure. -/
  isFinal : Bool := false
  error : Option Text := none

structure ProgressView where
  title : Text
  rows : List ProgressRow
  width : Int := 80
  barWidth : Int := 76
  isDone : Bool := false

namespace ProgressView

/-- A view of scripts that all wait. -/
def start (title : Text) (files : List Text) : ProgressView :=
  { title, rows := files.map fun path => { path } }

def stageLabel : Stage → Text
  | .compile => "translating"
  | .cache => "caching"
  | .execute => "running"
  | .unknown => []

/-- The label of what is told about a stage; empty if the label stays. -/
def statusLabel (stage : Stage) : Status → Text
  | .queued => "queued"
  | .hit => "cached"
  | .failed => "error"
  | .done => if stage = .execute then "done" else stageLabel stage
  | .working => stageLabel stage
  | .unknown => []

/-- A row after something is told about its script. -/
def applyToRow (ev : ProgressEvent) (row : ProgressRow) : ProgressRow :=
  let label := statusLabel ev.stage ev.status
  let row := if label = [] then row else { row with label, stage := ev.stage }
  if ev.status = .failed then { row with isFinal := true, error := ev.error }
  else if ev.stage = .execute ∧ ev.status = .done then { row with isFinal := true }
  else row

/-- The number of the last row with a path. -/
def rowOf? (v : ProgressView) (path : Text) : Option Nat :=
  (v.rows.reverse.findIdx? (·.path == path)).map fun i => v.rows.length - 1 - i

/-- The view after something is told; what is told about a script that is not listed is passed
over. -/
def apply (v : ProgressView) (ev : ProgressEvent) : ProgressView :=
  match v.rowOf? ev.file with
  | some i => { v with rows := v.rows.modify i (applyToRow ev) }
  | none => v

/-- The view on a screen with another number of columns, if that is positive. -/
def resize (v : ProgressView) (width : Int) : ProgressView :=
  if 0 < width then { v with width, barWidth := width - 4 } else v

/-- The view after the last of the scripts. -/
def finish (v : ProgressView) : ProgressView := { v with isDone := true }

/-- As many clusters as fit into a number of columns. -/
def fitting : Nat → List Text → Text
  | _, [] => []
  | width, cluster :: clusters =>
    let taken := Text.clusterColumns cluster
    if taken ≤ width then cluster ++ fitting (width - taken) clusters else []

/-- A text that takes at most so many columns; one that is cut ends with dots. -/
def shorten (width : Nat) (t : Text) : Text :=
  if Text.columns t ≤ width then t else fitting (width - 3) (Text.textClusters t) ++ "..."

def nameWidth (v : ProgressView) : Nat := (max (v.width - 16) 20).toNat

/-- A label and a name in columns. -/
def line (v : ProgressView) (label name : Text) : Text :=
  "  " ++ Text.padLeft 12 label ++ " " ++ shorten v.nameWidth name ++ "\n"

/-- The lines of a row: its state, and its failure if there is one. -/
def rowText (v : ProgressView) (row : ProgressRow) : Text :=
  v.line row.label row.path ++
    match row.error with
    | some error => v.line [] error
    | none => []

/-- The bar with the share that is shown, which is nothing or all. -/
def bar (v : ProgressView) : Text :=
  let cells := (v.barWidth - 5).toNat
  let cell : Text := if v.isDone then "█" else "░"
  (List.replicate cells cell).flatten ++ if v.isDone then " 100%" else "   0%"

def fill (width : Nat) (line : Text) : Text :=
  line ++ Text.blanks (width - Text.lineWidth line)

/-- A heading: a tab counts as four blanks, and several lines are made equally wide. Control
sequences in it take no column. -/
def heading (t : Text) : Text :=
  let untabbed := t.flatMap fun b => if b = 9 then Text.blanks 4 else [b]
  let lines := Text.splitOn Text.newline untabbed
  Text.join [Text.newline] (lines.map (fill ((lines.map Text.lineWidth).foldl max 0)))

/-- The text of a view: nothing if no script is listed. -/
def text (v : ProgressView) : Text :=
  if v.rows.isEmpty then []
  else
    heading ((if v.isDone then "done: " else "⣾  ") ++ v.title) ++ "\n\n" ++
      v.rows.flatMap v.rowText ++ "\n" ++ v.bar ++ "\n"

end ProgressView

end PrgScript
