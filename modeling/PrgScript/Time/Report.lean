import PrgScript.Number.Fixed
import PrgScript.Text.Utf8

/-!
# Timings

A timer collects the phases of a piece of work, each with its duration and a note. A
report sums them up and can be merged with others.
-/

namespace PrgScript

structure Phase where
  name : Text
  milliseconds : Float := 0
  note : Text := []

/-- The phases of a piece of work and their total duration in milliseconds. -/
structure Report where
  total : Float := 0
  phases : List Phase := []

namespace Report

/-- Adds the phases of another report, their names led by a label unless that is empty. -/
def merge (r : Report) (label : Text) (other : Report) : Report where
  total := r.total + other.total
  phases := r.phases ++ other.phases.map fun p =>
    if label = [] then p else { p with name := label ++ "/" ++ p.name }

def row (name : Text) (milliseconds : Float) : Text :=
  "  " ++ Text.padRightChars 20 name ++ " " ++ Text.padLeft 7 (Number.fixed 2 milliseconds) ++ " ms"

def phaseLine (p : Phase) : Text :=
  row p.name p.milliseconds ++ Text.onlyIf (p.note ≠ []) ("  // " ++ p.note) ++ "\n"

def text (r : Report) : Text :=
  "timings:\n" ++ r.phases.flatMap phaseLine ++ row "total" r.total ++ "\n"

end Report

/-- The phases of a piece of work, in the order they began. A timer that is off records none. -/
structure Timer where
  isOn : Bool := true
  phases : List Phase := []

namespace Timer

/-- Begins a phase; returns its number, or a negative one if the timer is off. -/
def start (t : Timer) (name : Text) : Int × Timer :=
  if t.isOn then (t.phases.length, { t with phases := t.phases ++ [{ name }] }) else (-1, t)

/-- Ends the phase with a number, if there is one, with a note. -/
def stop (t : Timer) (index : Int) (note : Text) : Timer :=
  if index < 0 then t
  else { t with phases := t.phases.modify index.toNat fun p => { p with note } }

/-- A phase that is over at once, noted if it failed. -/
def measure (t : Timer) (name : Text) (failed : Bool) : Timer :=
  let (index, t) := t.start name
  t.stop index (Text.onlyIf failed "failed")

def report (t : Timer) : Report where
  total := (t.phases.map (·.milliseconds)).sum
  phases := t.phases

end Timer

end PrgScript
