import PrgScript.Builder.Basic
import PrgScript.Script.Command
import PrgScript.Script.Context

/-!
# Compiling a script

A script is compiled line by line. For each line the context is asked whether the
statement may stand there, the statement is read, and then the context and the
program under construction are brought up to date. The first error ends the work.
-/

namespace PrgScript

/-- The state between two lines: the context, the program under construction, and the warnings
found so far. -/
structure Workbench where
  context : Context
  builder : Builder
  warnings : List Diagnostic := []

/-- A step of compiling: it may fail, and leaves a state in either case. -/
abbrev Compile := ExceptT Fault (StateM Workbench)

namespace Compile

def modifyContext (f : Context → Context) : Compile Unit :=
  modify fun w => { w with context := f w.context }

def warn (code : Code) (tok : Token) (message : Text) : Compile Unit :=
  modify fun w => { w with warnings := w.warnings ++ [⟨.warning, code, message, tok.span⟩] }

/-- Fails or goes on as a check tells. -/
def require {α : Type} : Except Fault α → Compile α
  | .ok a => return a
  | .error e => throw e

/-- Reads a part of a line and keeps the count of open parentheses, also after a failure. -/
def read {α : Type} (line : Line) (part : Read α) : Compile (α × Line) := do
  let (outcome, reading) := part.run.run ⟨line, (← get).context.parens⟩
  modifyContext fun ctx => { ctx with parens := reading.parens }
  match outcome with
  | .ok a => return (a, reading.line)
  | .error e => throw e

/-- Makes a call to the builder. A refusal is an error at the last token of the line. -/
def build (lastToken : Token) (call : Builder.Call) : Compile Unit := do
  let (outcome, builder) := (← get).builder.call call
  modify fun w => { w with builder }
  match outcome with
  | .ok _ => return
  | .error e => throw (.at (.buildRefused e) lastToken)

/-- Declares variables, with a warning for each that was declared before. -/
def declareNames : List Token → Compile Unit
  | [] => return
  | tok :: toks => do
    let (isNew, context) := (← get).context.declare tok.text
    modify fun w => { w with context }
    if !isNew then warn .localRedeclared tok (tok.text ++ " is already declared")
    declareNames toks

/-- Warns if the end of a loop names another variable than the innermost loop counts. -/
def checkCounter : Command → Compile Unit
  | .endFor (some tok) => do
    let counter := ((← get).context.blocks.head?.map (·.counter)).getD []
    if Text.sameFold tok.text counter then return
    warn .nextVarMismatch tok ("NEXT " ++ tok.text ++ " closes FOR " ++ counter)
  | _ => return

def chosen (current : ColorPair) : ColorChoice → ColorPair
  | .reset => .default
  | .choose foreground none => { current with foreground }
  | .choose foreground (some background) => ⟨foreground, background⟩

/-- Carries out a command that starts with one token and ends with another. -/
def perform (first last : Token) : Command → Compile Unit
  | .parameters names => do
    modifyContext fun ctx =>
      let ctx := { ctx with hasParameters := true, seenStatement := true }
      names.foldl (fun ctx tok => (ctx.declare tok.text).2) ctx
    build last (.setParams (names.map (·.text)))
  | .declare names => do
    declareNames names
    build last (.declare (names.map (·.text)) first.line)
  | .assign name value => build last (.assign name.text value name.line)
  | .beginIf condition => do
    modifyContext fun ctx =>
      { ctx with ifCount := Number.wrap (ctx.ifCount + 1) }.push
        { construct := .ifBlock, opener := first }
    build last (.beginIf condition first.line)
  | .elseWord => do
    modifyContext Context.markElse
    build last .beginElse
  | .endIf => do
    modifyContext fun ctx => { ctx with endifCount := Number.wrap (ctx.endifCount + 1) }.pop
    build last .endIf
  | .beginFor counter start limit step => do
    modifyContext fun ctx =>
      { ctx with forDepth := Number.wrap (ctx.forDepth + 1) }.push
        { construct := .forBlock, opener := first, counter := counter.text }
    build last (.beginFor counter.text start limit step first.line)
  | .endFor _ => do
    modifyContext fun ctx => { ctx with forDepth := Number.wrap (ctx.forDepth - 1) }.pop
    build last .endFor
  | .beginWhile condition => do
    modifyContext fun ctx =>
      { ctx with doDepth := Number.wrap (ctx.doDepth + 1) }.push
        { construct := .doBlock, opener := first }
    build last (.beginWhile condition first.line)
  | .endWhile => do
    modifyContext fun ctx => { ctx with doDepth := Number.wrap (ctx.doDepth - 1) }.pop
    build last .endWhile
  | .finish => build last (.finishScript first.line)
  | .setColor choice => do
    let colors := chosen (← get).context.colors choice
    modifyContext fun ctx => { ctx with colors }
    build last (.setColor colors first.line)
  | .say row col value => build last (.say row col value first.line)
  | .print values newline => build last (.print values newline first.line)
  | .beginClass name base oneLine => do
    build last (.beginClass name.text base first.line)
    if oneLine then build last .endClass
    else modifyContext (·.push { construct := .classBlock, opener := first })
  | .property name value => build last (.classProperty (Text.lower name.text) value first.line)
  | .endClass => do
    modifyContext Context.pop
    build last .endClass

def statement (first : Token) (line : Line) : Compile Unit := do
  let ctx := (← get).context
  if ctx.inClass ∧ !Context.belongsInClass first then
    throw (.at (.notInClass first.describe) first)
  if first.kind ≠ .keyword .kwParameter then
    modifyContext fun ctx => { ctx with seenStatement := true }
  require (ctx.admits first)
  let (command, rest) ← read line Read.command
  checkCounter command
  discard (read rest Read.expectEnd)
  perform first (line.tokens.getLast?.getD first) command
  modifyContext (·.setIndent (← get).builder.depth)

/-- Compiles the end of a script: every block must be closed. -/
def finish (eof : Token) : Compile Compiled := do
  let w ← get
  match w.context.blocks with
  | block :: _ => throw (.at (.notClosed block.construct block.opener.line) block.opener)
  | [] =>
    if !w.context.balanced then
      throw (.at (.countMismatch w.context.ifCount w.context.endifCount) eof)
    match (Builder.finish.run).run w.builder with
    | (.error e, _) => throw (.at (.buildUnfinished e) eof)
    | (.ok compiled, builder) =>
      set { w with builder }
      return compiled

def script : List Line → Compile Compiled
  | [] => finish { kind := .eof }
  | line :: lines => do
    match line.tokens with
    | [] => pure ()
    | first :: _ => statement first line
    match line.ending with
    | .error e => throw (.scan e)
    | .token tok => if tok.kind = .eof then finish tok else script lines

end Compile

/-- What compiling a script gives: the program or an error, the context at the end, and the
warnings in the order they were found. -/
structure Outcome where
  result : Except ScriptError Compiled
  context : Context
  warnings : List Diagnostic

/-- Compiles a dBase script in a context. The program is named for the script unless a name is
given. -/
def compileScript (file : File) (name : Text) (context : Context) : Outcome :=
  let name := if name = [] then Path.stem file.path else name
  let lines := Line.ofStream (.ofFile file .dbase)
  let (result, w) := (Compile.script lines).run.run { context, builder := .start name }
  match result with
  | .ok compiled => ⟨.ok compiled, w.context, w.warnings⟩
  | .error fault => ⟨.error (fault.error file.path), { w.context with failed := true }, w.warnings⟩

/-- The error for a script in a dialect that has no statements. -/
def noStatementsError (file : File) (d : Dialect) : ScriptError :=
  { cause := .noStatements d, file := file.path, line := 1, col := 1, span := ⟨file.id, 0, 0⟩ }

/-- Compiles a script of a dialect in a context. Without statements to read, the context stays as
it is. -/
def compileIn (file : File) (d : Dialect) (name : Text) (context : Context) : Outcome :=
  if d = .dbase then compileScript file name context
  else ⟨.error (noStatementsError file d), context, []⟩

end PrgScript
