import PrgScript.Trace.Event

/-!
# Recording a trace

A tracer keeps the events that its level lets through, in order. A span of a scope
that is not recorded has no number and leaves no events.
-/

namespace PrgScript.Trace

/-- A record of events: its level, the number of spans begun, and the events so far, before which
others may have been handed over. -/
structure Tracer where
  level : Level := .off
  spans : Nat := 0
  events : Array Event := #[]
  handedOver : Nat := 0

/-- A stretch of work between two events. A span that is not recorded has the number zero. -/
structure Span where
  id : Nat := 0
  parent : Nat := 0
  scope : Scope := ⟨0⟩
  name : Text := []
  extra : Extras := []

namespace Span

def isLive (s : Span) : Bool := s.id != 0

def withExtra (s : Span) (key value : Text) : Span :=
  if s.isLive then { s with extra := Extras.insert key value s.extra } else s

end Span

namespace Tracer

/-- Keeps an event if the level lets it through. -/
def emit (t : Tracer) (ev : Event) : Tracer :=
  if t.level.emits ev.scope then { t with events := t.events.push ev } else t

/-- Begins a span inside another, whose number is zero if there is none. -/
def beginSpan (t : Tracer) (scope : Scope) (name : Text) (parent : Nat) : Span × Tracer :=
  if t.level.emits scope then
    let id := t.spans + 1
    ({ id, parent, scope, name },
      { t with spans := id }.emit { kind := .spanBegin, scope, span := id, parent, name })
  else ({}, t)

def endSpan (t : Tracer) (s : Span) (detail : Text) : Tracer :=
  if s.isLive then
    t.emit { kind := .spanEnd, scope := s.scope, span := s.id, parent := s.parent, name := s.name
             detail, extra := s.extra }
  else t

def point (t : Tracer) (scope : Scope) (name detail : Text) : Tracer :=
  t.emit { kind := .point, scope, name, detail }

/-- Hands over the events so far with their numbers, which count from one. -/
def handOver (t : Tracer) : List (Nat × Event) × Tracer :=
  ((t.events.toList.zipIdx (t.handedOver + 1)).map fun (ev, number) => (number, ev),
    { t with events := #[], handedOver := t.handedOver + t.events.size })

end Tracer

/-- Where events are written: how often it was flushed and closed, and what goes wrong there. -/
structure Sink where
  flushes : Nat := 0
  closes : Nat := 0
  flushFault : Option Text := none
  closeFault : Option Text := none

namespace Sink

/-- Flushes the sink of a tracer; without recording there is none. -/
def flush (sink : Sink) (level : Level) : Except Text Unit × Sink :=
  if level.isEnabled then
    let sink' := { sink with flushes := sink.flushes + 1 }
    match sink.flushFault with
    | some fault => (.error fault, sink')
    | none => (.ok (), sink')
  else (.ok (), sink)

def close (sink : Sink) (level : Level) : Except Text Unit × Sink :=
  match sink.flush level with
  | (.error fault, sink') => (.error fault, sink')
  | (.ok _, sink') =>
    if level.isEnabled then
      let sink'' := { sink' with closes := sink'.closes + 1 }
      match sink.closeFault with
      | some fault => (.error fault, sink'')
      | none => (.ok (), sink'')
    else (.ok (), sink')

end Sink

end PrgScript.Trace
