import PrgScript.Number.Fixed
import PrgScript.Text.Json
import PrgScript.Time.Calendar
import PrgScript.Time.Duration
import PrgScript.Trace.Level

/-!
# Trace events

An event is the beginning or the end of a span or a single point. Spans are numbered
from one; zero stands for none. Extra values are kept under names in increasing order.
When an event is written, a stamp tells its time, its number and how long its span
took.
-/

namespace PrgScript.Trace

inductive EventKind where
  | spanBegin | spanEnd | point | unknown
deriving DecidableEq, Repr

namespace EventKind

def ofCode : Nat → EventKind
  | 1 => .spanBegin
  | 2 => .spanEnd
  | 3 => .point
  | _ => .unknown

def name : EventKind → String
  | .spanBegin => "begin"
  | .spanEnd => "end"
  | .point => "point"
  | .unknown => "unknown"

def sign : EventKind → String
  | .spanBegin => "→ "
  | .spanEnd => "← "
  | .point => "• "
  | .unknown => ""

end EventKind

/-- Extra values by name, in increasing order of the names. -/
abbrev Extras := List (Text × Text)

def Extras.insert (key value : Text) : Extras → Extras
  | [] => [(key, value)]
  | (k, v) :: rest =>
    if key = k then (key, value) :: rest
    else if Text.less key k then (key, value) :: (k, v) :: rest
    else (k, v) :: Extras.insert key value rest

structure Event where
  kind : EventKind
  scope : Scope
  span : Nat := 0
  parent : Nat := 0
  name : Text
  detail : Text := []
  extra : Extras := []
deriving DecidableEq, Repr

/-- What is known about an event only when it happens: the time and the time recording began, both
in microseconds, the event's number, and the duration of its span in nanoseconds. -/
structure Stamp where
  time : Int := 0
  since : Int := 0
  seq : Nat := 0
  elapsed : Int := 0

namespace Event

def extraText (extra : Extras) : Text :=
  Text.onlyIf (extra ≠ []) <|
    " \x7b" ++ Text.join ", " (extra.map fun (k, v) => k ++ "=" ++ v) ++ "\x7d"

/-- An event as a line of text: the time since recording began in milliseconds, a sign for the
kind, the name, and what else is known. An event inside a span is indented. -/
def line (ev : Event) (stamp : Stamp) : Text :=
  let offset := Duration.microseconds (Duration.saturate ((stamp.time - stamp.since) * 1000))
  "[" ++ Text.padLeft 9 (Number.fixed 3 (Float.ofInt offset / 1000)) ++ "ms] " ++
    Text.onlyIf (0 < ev.parent) "  " ++ ev.kind.sign ++ ev.name ++
    Text.onlyIf (ev.detail ≠ []) (" (" ++ ev.detail ++ ")") ++ extraText ev.extra ++
    Text.onlyIf (ev.kind = .spanEnd)
      (" +" ++ Duration.text (Duration.roundTo 1000 stamp.elapsed)) ++ "\n"

/-- A number as a field, left out if it is zero. -/
def numberField (name : String) (n : Int) : List (Text × Json) :=
  if n = 0 then [] else [Json.field name (.int n)]

def jsonLine (ev : Event) (stamp : Stamp) : Text :=
  Json.compact (.record (
    [Json.field "time" (.text (Calendar.timestamp stamp.time)),
      Json.field "seq" (.nat stamp.seq), Json.field "kind" (.text ev.kind.name),
      Json.field "scope" (.text ev.scope.name)] ++
    numberField "span_id" ev.span ++ numberField "parent_id" ev.parent ++
    [Json.field "name" (.text ev.name)] ++ Json.textField "detail" ev.detail ++
    numberField "elapsed_us" (Duration.microseconds stamp.elapsed) ++
    (if ev.extra = [] then []
      else [Json.field "extra" (.record (ev.extra.map fun (k, v) => (k, .text v)))]))) ++ "\n"

def write (ev : Event) (format : Format) (stamp : Stamp) : Text :=
  match format with
  | .text => ev.line stamp
  | .json => ev.jsonLine stamp

end Event

end PrgScript.Trace
