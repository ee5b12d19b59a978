import PrgScript.Program.Stmt
import PrgScript.Program.Widget

/-!
# Programs

A program is the executable form of one script: its parameters, its statements and
the classes it declares. A program read back from disk is checked before it runs.
-/

namespace PrgScript

/-- One property that a class sets on its objects. -/
structure Property where
  name : Text
  value : Expr
  line : Nat := 0
deriving DecidableEq, Inhabited

/-- A declared class: the kind of object it extends and the properties it sets, in order. -/
structure Class where
  name : Text
  base : Widget
  properties : List Property := []
  line : Nat := 0
deriving DecidableEq

/-- The executable form of one script. -/
structure Program where
  name : Text
  params : List Text := []
  body : List Stmt := []
  classes : List Class := []
deriving DecidableEq

namespace Class

/-- The first fault of a class: a base that no object has, or a fault in a property. -/
def fault? (c : Class) : Option Malformed :=
  if c.base.isValid then (c.properties.map (·.value)).findSome? Expr.fault?
  else some (.invalidBase c.name c.base.name)

end Class

namespace Program

/-- The declared class with exactly the given name. -/
def class? (program : Program) (name : Text) : Option Class :=
  program.classes.find? (·.name == name)

/-- The first fault of a program. A program without one has the content that every kind in it
needs. -/
def fault? (program : Program) : Option Malformed :=
  (Stmt.blockFault? program.body).or (program.classes.findSome? Class.fault?)

end Program

end PrgScript
