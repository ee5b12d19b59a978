import PrgScript.Program.Widget

/-!
# Refused builder calls

A builder refuses a call that does not fit the blocks that are open. One of the reasons
is no refusal but a breakdown: a line cannot be indented by less than nothing.
-/

namespace PrgScript

/-- The kind of a block that a builder has open. -/
inductive BlockKind where
  | branch
  | forTo
  | whileDo
  | classBody
deriving DecidableEq, Repr

def BlockKind.name : BlockKind → String
  | .branch => "if"
  | .forTo => "for"
  | .whileDo => "while"
  | .classBody => "class"

inductive BuildError where
  | programSealed
  | paramsAfterHeader
  | endWithoutBlock (kind : BlockKind)
  | endOfOther (kind actual : BlockKind)
  | elseWithoutIf
  | secondElse
  | invalidBase (base : Widget)
  | nestedClass (name outer : Text)
  | propertyOutsideClass (name : Text)
  | endWithoutClass
  | blockLeftOpen (kind : BlockKind)
  /-- The call has broken down over a line at a depth below zero. -/
  | negativeDepth
deriving DecidableEq, Repr

def BuildError.message : BuildError → Text
  | .programSealed => "codegen: program is sealed"
  | .paramsAfterHeader => "codegen: parameters after the entry header"
  | .endWithoutBlock kind => "codegen: end of " ++ kind.name ++ " without an open block"
  | .endOfOther kind actual =>
    "codegen: end of " ++ kind.name ++ " while " ++ actual.name ++ " is open"
  | .elseWithoutIf => "codegen: else without an open if"
  | .secondElse => "codegen: second else in one if"
  | .invalidBase base => "codegen: invalid widget base " ++ base.name
  | .nestedClass name outer => "codegen: class " ++ name ++ " inside class " ++ outer
  | .propertyOutsideClass name => "codegen: property " ++ name ++ " outside a class"
  | .endWithoutClass => "codegen: end of class without an open class"
  | .blockLeftOpen kind => "codegen: " ++ kind.name ++ " block left open"
  | .negativeDepth => "strings: negative Repeat count"

end PrgScript
