import PrgScript.Text.Basic

/-!
# Progress of a run

A run goes through stages and tells about each of them: that it waits, works, has found
its result in the cache, is done or has failed.
-/

namespace PrgScript

inductive Stage where
  | compile
  | cache
  | execute
  | unknown
deriving DecidableEq, Repr

namespace Stage

def name : Stage → String
  | .compile => "translate"
  | .cache => "cache"
  | .execute => "execute"
  | .unknown => ""

def ofName (name : Text) : Stage :=
  ([Stage.compile, .cache, .execute].find? fun s => Text.ofString s.name == name).getD .unknown

end Stage

/-- What is told about a stage. -/
inductive Status where
  | queued
  | working
  /-- The result was in the cache. -/
  | hit
  | done
  | failed
  | unknown
deriving DecidableEq, Repr

namespace Status

def name : Status → String
  | .queued => "queued"
  | .working => "working"
  | .hit => "hit"
  | .done => "done"
  | .failed => "error"
  | .unknown => ""

def ofName (name : Text) : Status :=
  ([Status.queued, .working, .hit, .done, .failed].find? fun s =>
    Text.ofString s.name == name).getD .unknown

end Status

/-- What a run tells about a script. A failure comes with its message. -/
structure ProgressEvent where
  file : Text
  stage : Stage
  status : Status
  error : Option Text := none
deriving DecidableEq, Repr

/-- The nanoseconds that stages took, in the order they were first set. -/
abbrev StageTimes := List (Stage × Int)

namespace StageTimes

/-- The time that a stage took, or zero. -/
def get (times : StageTimes) (stage : Stage) : Int := (times.lookup stage).getD 0

def add (stage : Stage) (nanoseconds : Int) : StageTimes → StageTimes
  | [] => [(stage, nanoseconds)]
  | (s, t) :: rest =>
    if s = stage then (s, t + nanoseconds) :: rest else (s, t) :: add stage nanoseconds rest

end StageTimes

end PrgScript
