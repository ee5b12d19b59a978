import PrgScript.Machine.Console
import PrgScript.Machine.Eval
import PrgScript.Program.Basic
import PrgScript.Trace.Tracer

/-!
# Executing statements

A script runs against a console. A fault carries the line of the statement at fault,
which the session keeps track of. A loop may go on for ever, so every execution is
given a bound on the rounds of each loop; a run that ends within the bound ends the
same way within every larger one.
-/

namespace PrgScript

structure Session (σ : Type) where
  vars : Variables := []
  /-- The places of the declared classes in the program. -/
  classes : Table Nat := []
  line : Nat := 0
  steps : Nat := 0
  tracer : Trace.Tracer := {}
  console : σ

/-- Why an execution stops before its end: a fault, or a loop that has used up its bound. -/
inductive Stop where
  | fault (error : ExecError)
  | outOfFuel

/-- How a statement ends: the next one follows, or the script is left. -/
inductive Flow where
  | next
  | leave
deriving DecidableEq, Repr

/-- A step of an execution: it may stop, and leaves a state in either case. -/
abbrev Exec (σ : Type) := ExceptT Stop (StateM (Session σ))

namespace Exec

variable {σ : Type}

/-- Stops with a fault at the current line. -/
def fail {α : Type} (cause : ExecCause) : Exec σ α := do
  throw (.fault ⟨cause, (← get).line⟩)

/-- Goes on with a result or stops with its fault. -/
def require {α : Type} : Except ExecCause α → Exec σ α
  | .ok a => return a
  | .error cause => fail cause

def value (e : Expr) : Exec σ Value := do require (eval (← get).vars e)

def condition (word : ConditionOf) (e : Expr) : Exec σ Bool := do
  require ((← value e).truth word)

def number (place : NumberFor) (e : Expr) : Exec σ Float := do
  require ((← value e).toNumber place)

def setVariable (name : Text) (v : Value) : Exec σ Unit :=
  modify fun s => { s with vars := s.vars.set name v }

def setLine (line : Nat) : Exec σ Unit := modify fun s => { s with line }

/-- Makes a call to the console; a failure there is a fault of the script. -/
def call (f : σ → Except Text σ) : Exec σ Unit := do
  match f (← get).console with
  | .ok console => modify fun s => { s with console }
  | .error message => fail (.consoleFailed message)

/-- Counts a statement and records it in the trace. -/
def enter (s : Stmt) : Exec σ Unit :=
  modify fun state =>
    { state with
      line := s.line
      steps := state.steps + 1
      tracer := state.tracer.point .stmt (Stmt.kindName s.kind) ("line " ++ Text.ofNat s.line) }

def largestPosition : Float := 2147483647

/-- A row or column of the screen: a whole number from zero on. -/
def position (place : NumberFor) (e : Expr) : Exec σ Nat := do
  let v ← value e
  let x ← require (v.toNumber place)
  if x < 0 || x != x.floor || largestPosition < x then fail (.badPosition place v.text)
  else return x.toUInt64.toNat

def values : List Expr → Exec σ (List Value)
  | [] => return []
  | e :: es => do
    let v ← value e
    return v :: (← values es)

/-- Repeats a body while a condition holds, for at most the given number of rounds. -/
def whileLoop (condition : Exec σ Bool) (body : Exec σ Flow) (line : Nat) : Nat → Exec σ Flow
  | 0 => throw .outOfFuel
  | rounds + 1 => do
    if ← condition then
      match ← body with
      | .leave => return .leave
      | .next =>
        setLine line
        whileLoop condition body line rounds
    else return .next

def counterValue (counter : Text) : Exec σ Float := do
  match (← get).vars.get? counter with
  | some v => require (v.toNumber (.forCounter counter))
  | none => fail (.undefinedVariable counter)

/-- Whether a counter has passed its limit in the direction of its step. -/
def hasPassed (step limit current : Float) : Bool :=
  (0 < step && limit < current) || (step < 0 && current < limit)

/-- Repeats a body while a counter has not passed its limit, for at most the given number of
rounds. The counter is read anew each time. -/
def forLoop (counter : Text) (limit step : Float) (body : Exec σ Flow) (line : Nat) :
    Nat → Exec σ Flow
  | 0 => throw .outOfFuel
  | rounds + 1 => do
    if hasPassed step limit (← counterValue counter) then return .next
    else
      match ← body with
      | .leave => return .leave
      | .next =>
        setLine line
        setVariable counter (.number ((← counterValue counter) + step))
        forLoop counter limit step body line rounds

/-- Counts a loop: start, limit and step are evaluated once, before the first round. -/
def countLoop (counter : Text) (start limit : Expr) (step : Option Expr) (body : Exec σ Flow)
    (line rounds : Nat) : Exec σ Flow := do
  let first ← number .forStart start
  let last ← number .forLimit limit
  let by_ ← match step with
    | some e => number .forStep e
    | none => pure 1
  if by_ == 0 then fail (.zeroStep counter)
  setVariable counter (.number first)
  forLoop counter last by_ body line rounds

def declare : List Text → Exec σ Unit
  | [] => return
  | name :: names => do
    setVariable name .initial
    declare names

def printedText (vs : List Value) (newline : Bool) : Text :=
  Text.join " " (vs.map Value.text) ++ Text.onlyIf newline "\n"

mutual

/-- Executes a statement against a console. -/
def stmt (c : Console σ) (rounds : Nat) (s : Stmt) : Exec σ Flow :=
  match s with
  | .declare names line => do
    enter (.declare names line)
    declare names
    return .next
  | .assign name e line => do
    enter (.assign name e line)
    setVariable name (← value e)
    return .next
  | .branch e thenBody elseBody line => do
    enter (.branch e thenBody elseBody line)
    if ← condition .ifWord e then block c rounds thenBody else block c rounds elseBody
  | .forTo counter start limit step body line => do
    enter (.forTo counter start limit step body line)
    countLoop counter start limit step (block c rounds body) line rounds
  | .whileDo e body line => do
    enter (.whileDo e body line)
    whileLoop (condition .doWhile e) (block c rounds body) line rounds
  | .setColor colors line => do
    enter (.setColor colors line)
    call (c.setColor colors)
    return .next
  | .say row col e line => do
    enter (.say row col e line)
    let r ← position .sayRow row
    let k ← position .sayColumn col
    let v ← value e
    call (c.say r k v.text)
    return .next
  | .print es newline line => do
    enter (.print es newline line)
    let vs ← values es
    call (c.print (printedText vs newline))
    return .next
  | .finish line => do
    enter (.finish line)
    return .leave
  | .malformed kind line => do
    enter (.malformed kind line)
    fail (if 1 ≤ kind ∧ kind ≤ 8 then .missingContent else .unknownStatement kind)

/-- Executes statements one after another, up to one that leaves the script. -/
def block (c : Console σ) (rounds : Nat) : List Stmt → Exec σ Flow
  | [] => return .next
  | s :: ss => do
    match ← stmt c rounds s with
    | .leave => return .leave
    | .next => block c rounds ss

end

/-- Gives the parameters their arguments; those without one start like any variable. -/
def bindParams : List Text → List Value → Exec σ Unit
  | [], _ => return
  | name :: names, [] => do
    setVariable name .initial
    bindParams names []
  | name :: names, v :: vs => do
    setVariable name v
    bindParams names vs

/-- A table with the place of each class under its name. A later class takes the place of an
earlier one with the same name. -/
def enterClasses (classes : List Class) (table : Table Nat) : Table Nat :=
  classes.zipIdx.foldl (fun table (c, place) => table.put (Variables.key c.name) place) table

/-- Declares classes and records them in the trace. -/
def announce (classes : List Class) : Exec σ Unit :=
  modify fun s =>
    { s with
      classes := enterClasses classes s.classes
      tracer := classes.foldl
        (fun t c => t.point .unit "class" (c.name ++ " extends " ++ c.base.name)) s.tracer }

def program (c : Console σ) (rounds : Nat) (p : Program) (args : List Value) : Exec σ Unit := do
  if p.params.length < args.length then
    fail (.tooManyArguments p.name p.params.length args.length)
  bindParams p.params args
  announce p.classes
  discard (block c rounds p.body)

end Exec

end PrgScript
