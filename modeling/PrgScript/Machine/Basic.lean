import PrgScript.Machine.Exec

/-!
# Machines

A machine runs one program, any number of times, and keeps the variables of the last
run. A host can then build objects of the classes that the program declares.
-/

namespace PrgScript

/-- A program ready to run, with what its last run has left. -/
structure Machine where
  program : Program
  vars : Variables := []
  steps : Nat := 0
  /-- The places in the program of the classes that the last run has declared. -/
  classes : Table Nat := []

structure RunOutcome (σ : Type) where
  machine : Machine
  console : σ
  tracer : Trace.Tracer
  result : Except Stop Unit

/-- An object of a declared class with its properties. -/
structure Instance where
  className : Text
  base : Widget
  properties : List (Text × Value)

namespace Instance

def sortedProperties (inst : Instance) : List (Text × Value) :=
  inst.properties.mergeSort fun a b => !Text.less b.1 a.1

end Instance

namespace Machine

/-- A machine for a program, which must be there and without fault, and for a console, which must
be there. -/
def ofProgram (program : Option Program) (hasConsole : Bool) : Except ExecError Machine :=
  match program with
  | none => .error { cause := .badProgram .noProgram }
  | some p =>
    match p.fault? with
    | some fault => .error { cause := .badProgram fault }
    | none => if hasConsole then .ok { program := p } else .error { cause := .noConsole }

/-- How a run ended, in the words of the trace. -/
def resultText : Except Stop Unit → Text
  | .ok _ => "ok"
  | .error (.fault e) => e.message
  | .error .outOfFuel => "out of fuel"

/-- Runs the program with arguments, at most the given number of rounds in each loop. The run is a
span of the trace inside the span `parent`. -/
def run {σ : Type} (m : Machine) (c : Console σ) (console : σ) (tracer : Trace.Tracer)
    (parent rounds : Nat) (args : List Value) : RunOutcome σ :=
  let (span, tracer) := tracer.beginSpan .unit ("exec:" ++ m.program.name) parent
  let (result, s) := (Exec.program c rounds m.program args).run.run { tracer, console }
  let detail := resultText result
  let tracer := match result with
    | .ok _ => s.tracer
    | .error _ => s.tracer.point .error "exec-failed" detail
  { machine :=
      { program := m.program, vars := s.vars, steps := s.steps, classes := s.classes }
    console := s.console
    tracer := tracer.endSpan (span.withExtra "steps" (Text.ofNat s.steps)) detail
    result }

/-- A variable of the last run. -/
def valueOf? (m : Machine) (name : Text) : Option Value := m.vars.get? name

/-- The class that the last run has entered under a name. -/
def entered? (m : Machine) (name : Text) : Option Class :=
  (m.classes.lookup (Variables.key name)).bind (m.program.classes[·]?)

/-- The class with a name in any letter case. One that has not been entered is searched for in the
program, from the first class on. -/
def class? (m : Machine) (name : Text) : Option Class :=
  (m.entered? name).or
    (m.program.classes.find? fun c => Variables.key c.name == Variables.key name)

/-- The properties after those of a list have been evaluated in order. -/
def evalProperties (vars : Variables) (props : List (Text × Value)) :
    List Property → Except ExecError (List (Text × Value))
  | [] => .ok props
  | p :: ps =>
    match eval vars p.value with
    | .ok v => evalProperties vars (Table.put p.name v props) ps
    | .error cause => .error ⟨cause, p.line⟩

/-- Builds an object of a declared class: first the properties that every object of its kind has,
then those that the class sets, in order. They can refer to the variables of the last run. -/
def instantiate (m : Machine) (name : Text) : Except ExecError Instance :=
  match m.class? name with
  | none => .error { cause := .undeclaredClass name }
  | some c =>
    let defaults := c.base.defaults.map fun (name, value) => ({ name, value } : Property)
    match evalProperties m.vars [] (defaults ++ c.properties) with
    | .ok properties => .ok { className := c.name, base := c.base, properties }
    | .error e => .error e

end Machine

end PrgScript
