import PrgScript.Builder.Error
import PrgScript.Program.Basic

/-!
# Building a program

A builder takes the statements of a script one call at a time, blocks by an opening
and a closing call, and grows two things side by side: the executable program and its
listing, one line a statement, indented by four blanks a level. The entry header is
written just before the first line of the body, so the parameters must be known by
then. A refused call returns its error and the state it has reached.
-/

namespace PrgScript

/-- What a finished build consists of: the lines of the listing and the executable program.
Once sealed, no line can be added. -/
structure Compiled where
  lines : List Text := []
  program : Program
  isSealed : Bool := false
deriving DecidableEq

namespace Compiled

/-- Adds a line unless the listing is sealed. -/
def append (c : Compiled) (line : Text) : Except BuildError Compiled :=
  if c.isSealed then .error .programSealed else .ok { c with lines := c.lines ++ [line] }

def close (c : Compiled) : Compiled := { c with isSealed := true }

/-- The listing as one text, every line ended by a line feed. -/
def listing (c : Compiled) : Text := c.lines.flatMap (· ++ [Text.newline])

end Compiled

/-- A block that is still being built: its head and what has been added to it, in order. -/
inductive OpenBlock where
  | branch (condition : Expr) (thenBody elseBody : List Stmt) (inElse : Bool) (line : Nat)
  | forTo (counter : Text) (start limit : Expr) (step : Option Expr) (body : List Stmt)
      (line : Nat)
  | whileDo (condition : Expr) (body : List Stmt) (line : Nat)
  | classBody

namespace OpenBlock

def kind : OpenBlock → BlockKind
  | .branch .. => .branch
  | .forTo .. => .forTo
  | .whileDo .. => .whileDo
  | .classBody => .classBody

/-- The block with a statement added, or `none` if the block takes no statements. -/
def add? (s : Stmt) : OpenBlock → Option OpenBlock
  | .branch c thenBody elseBody true line => some (.branch c thenBody (elseBody ++ [s]) true line)
  | .branch c thenBody elseBody false line => some (.branch c (thenBody ++ [s]) elseBody false line)
  | .forTo v a b step body line => some (.forTo v a b step (body ++ [s]) line)
  | .whileDo c body line => some (.whileDo c (body ++ [s]) line)
  | .classBody => none

/-- The statement that a closed block is. -/
def stmt? : OpenBlock → Option Stmt
  | .branch c thenBody elseBody _ line => some (.branch c thenBody elseBody line)
  | .forTo v a b step body line => some (.forTo v a b step body line)
  | .whileDo c body line => some (.whileDo c body line)
  | .classBody => none

end OpenBlock

/-- An open block and the indentation of the line that opened it. -/
structure Frame where
  block : OpenBlock
  depth : Int

/-- The state of a build. `frames` holds the open blocks, the innermost first. -/
structure Builder where
  compiled : Compiled
  depth : Int := 1
  hasHeader : Bool := false
  finished : Bool := false
  frames : List Frame := []
  openClass : Option Class := none

/-- A step of a build: it may be refused, and leaves a state in either case. -/
abbrev Build := ExceptT BuildError (StateM Builder)

namespace Builder

def start (name : Text) : Builder := { compiled := { program := { name } } }

def appendLine (line : Text) : Build Unit := do
  let b ← get
  match b.compiled.append line with
  | .ok compiled => set { b with compiled }
  | .error e => throw e

def header (params : List Text) : Text := "proc main(" ++ Text.join ", " params ++ ")"

def ensureHeader : Build Unit := do
  let b ← get
  if b.hasHeader then return
  set { b with hasHeader := true }
  appendLine (header b.compiled.program.params)

/-- The blanks before a line at a nesting depth. -/
def indentation (depth : Int) : Text := Text.blanks (4 * depth.toNat)

/-- Writes a line at the current depth. No line can stand at a depth below zero. -/
def emit (text : Text) : Build Unit := do
  if (← get).finished then throw .programSealed
  ensureHeader
  if (← get).depth < 0 then throw .negativeDepth
  appendLine (indentation (← get).depth ++ text)

def addToBody (s : Stmt) (b : Builder) : Builder :=
  let program := { b.compiled.program with body := b.compiled.program.body ++ [s] }
  { b with compiled := { b.compiled with program } }

/-- Adds a statement to the innermost open block, or to the body of the program if there is none
or if it is a class. -/
def addStmt (s : Stmt) (b : Builder) : Builder :=
  match b.frames with
  | [] => b.addToBody s
  | frame :: frames =>
    match frame.block.add? s with
    | some block => { b with frames := { frame with block } :: frames }
    | none => b.addToBody s

/-- Opens a block: later lines stand one level deeper. -/
def push (block : OpenBlock) (b : Builder) : Builder :=
  { b with frames := ⟨block, b.depth⟩ :: b.frames, depth := b.depth + 1 }

/-- Takes the innermost block off, which must be of the given kind. -/
def pop (kind : BlockKind) : Build OpenBlock := do
  let b ← get
  match b.frames with
  | [] => throw (.endWithoutBlock kind)
  | frame :: frames =>
    if frame.block.kind = kind then
      set { b with frames, depth := frame.depth }
      return frame.block
    else throw (.endOfOther kind frame.block.kind)

/-- Records the parameters of the entry point, which must come before every line. -/
def setParams (names : List Text) : Build Unit := do
  let b ← get
  if b.hasHeader then throw .paramsAfterHeader
  let program := { b.compiled.program with params := names }
  set { b with compiled := { b.compiled with program } }

/-- Writes a line for each of the declared variables. -/
def emitDeclarations : List Text → Build Unit
  | [] => return
  | name :: names => do
    emit ("local " ++ name ++ " = " ++ logicalText false)
    emitDeclarations names

def declare (names : List Text) (line : Nat) : Build Unit := do
  emitDeclarations names
  modify (addStmt (.declare names line))

def assign (name : Text) (value : Expr) (line : Nat) : Build Unit := do
  emit (name ++ " = " ++ value.text)
  modify (addStmt (.assign name value line))

def beginIf (condition : Expr) (line : Nat) : Build Unit := do
  emit ("if " ++ condition.text ++ " then")
  modify (push (.branch condition [] [] false line))

/-- Switches the innermost conditional to its else branch. -/
def beginElse : Build Unit := do
  let b ← get
  match b.frames with
  | ⟨.branch c thenBody elseBody inElse line, depth⟩ :: frames =>
    if inElse then throw .secondElse
    set { b with depth }
    emit "else"
    modify fun b =>
      { b with
        depth := b.depth + 1
        frames := ⟨.branch c thenBody elseBody true line, depth⟩ :: frames }
  | _ => throw .elseWithoutIf

/-- Closes the innermost block, which must be of the given kind, and adds it as a statement. -/
def closeBlock (kind : BlockKind) : Build Unit := do
  let block ← pop kind
  emit "end"
  match block.stmt? with
  | some s => modify (addStmt s)
  | none => return

def beginFor (counter : Text) (start limit : Expr) (step : Option Expr) (line : Nat) :
    Build Unit := do
  let stepText : Text := match step with
    | some e => e.text
    | none => "1"
  emit ("for " ++ counter ++ " = " ++ start.text ++ " to " ++ limit.text ++ " step " ++ stepText ++
    " do")
  modify (push (.forTo counter start limit step [] line))

def beginWhile (condition : Expr) (line : Nat) : Build Unit := do
  emit ("while " ++ condition.text ++ " do")
  modify (push (.whileDo condition [] line))

def setColor (colors : ColorPair) (line : Nat) : Build Unit := do
  emit ("setcolor(" ++ colors.foreground.text ++ ", " ++ colors.background.text ++ ")")
  modify (addStmt (.setColor colors line))

/-- Shows a value at a place of the screen. -/
def say (row col value : Expr) (line : Nat) : Build Unit := do
  emit ("say(" ++ row.text ++ ", " ++ col.text ++ ", " ++ value.text ++ ")")
  modify (addStmt (.say row col value line))

/-- Prints values, with a line end or without. -/
def print (values : List Expr) (newline : Bool) (line : Nat) : Build Unit := do
  let verb : Text := if newline then "println" else "print"
  emit (verb ++ "(" ++ Text.join ", " (values.map Expr.text) ++ ")")
  modify (addStmt (.print values newline line))

def finishScript (line : Nat) : Build Unit := do
  emit "return"
  modify (addStmt (.finish line))

/-- Opens a class and its constructor, two levels of indentation in all. -/
def beginClass (name : Text) (base : Widget) (line : Nat) : Build Unit := do
  if !base.isValid then throw (.invalidBase base)
  match (← get).openClass with
  | some c => throw (.nestedClass name c.name)
  | none =>
    emit ("class " ++ name ++ " extends " ++ base.name)
    modify (push .classBody)
    emit "constructor()"
    modify fun b => { b with depth := b.depth + 1 }
    emit "super()"
    modify fun b => { b with openClass := some { name, base, line } }

def classProperty (name : Text) (value : Expr) (line : Nat) : Build Unit := do
  match (← get).openClass with
  | none => throw (.propertyOutsideClass name)
  | some c =>
    emit ("this." ++ name ++ " = " ++ value.text)
    modify fun b =>
      { b with openClass := some { c with properties := c.properties ++ [⟨name, value, line⟩] } }

def endClass : Build Unit := do
  match (← get).openClass with
  | none => throw .endWithoutClass
  | some c =>
    modify fun b => { b with depth := b.depth - 1 }
    emit "end"
    let _ ← pop .classBody
    emit "end"
    modify fun b =>
      let program := { b.compiled.program with classes := b.compiled.program.classes ++ [c] }
      { b with compiled := { b.compiled with program }, openClass := none }

/-- Closes the entry point; every block must be closed. -/
def finish : Build Compiled := do
  let b ← get
  if b.finished then throw .programSealed
  match b.frames with
  | frame :: _ => throw (.blockLeftOpen frame.block.kind)
  | [] =>
    ensureHeader
    appendLine "end"
    modify fun b => { b with finished := true }
    return (← get).compiled

inductive Call where
  | setParams (names : List Text)
  | declare (names : List Text) (line : Nat)
  | assign (name : Text) (value : Expr) (line : Nat)
  | beginIf (condition : Expr) (line : Nat)
  | beginElse
  | endIf
  | beginFor (counter : Text) (start limit : Expr) (step : Option Expr) (line : Nat)
  | endFor
  | beginWhile (condition : Expr) (line : Nat)
  | endWhile
  | setColor (colors : ColorPair) (line : Nat)
  | say (row col value : Expr) (line : Nat)
  | print (values : List Expr) (newline : Bool) (line : Nat)
  | finishScript (line : Nat)
  | beginClass (name : Text) (base : Widget) (line : Nat)
  | classProperty (name : Text) (value : Expr) (line : Nat)
  | endClass
  | finish

def perform : Call → Build Unit
  | .setParams names => setParams names
  | .declare names line => declare names line
  | .assign name value line => assign name value line
  | .beginIf condition line => beginIf condition line
  | .beginElse => beginElse
  | .endIf => closeBlock .branch
  | .beginFor counter start limit step line => beginFor counter start limit step line
  | .endFor => closeBlock .forTo
  | .beginWhile condition line => beginWhile condition line
  | .endWhile => closeBlock .whileDo
  | .setColor colors line => setColor colors line
  | .say row col value line => say row col value line
  | .print values newline line => print values newline line
  | .finishScript line => finishScript line
  | .beginClass name base line => beginClass name base line
  | .classProperty name value line => classProperty name value line
  | .endClass => endClass
  | .finish => discard finish

def call (b : Builder) (c : Call) : Except BuildError Unit × Builder := ((perform c).run).run b

end Builder

end PrgScript
