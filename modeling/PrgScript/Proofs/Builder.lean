import PrgScript.Builder.Basic
import PrgScript.Proofs.Step

/-!
# What a builder call does

Each call either is refused or changes the state in a way that one equation
says. The equations hold for a live builder, which is one that still takes
lines; everything before `finish` is live. Two pure operations carry all of
them: `addLine` writes a line, the header before it if that is missing, and
`addStmt` puts a statement into the innermost open block. The two do not
interfere, and neither moves the indentation.
-/

namespace PrgScript

/-- Whether the else part of a block has begun. -/
def OpenBlock.inElse : OpenBlock → Bool
  | .branch _ _ _ inElse _ => inElse
  | .forTo .. | .whileDo .. | .classBody => false

theorem OpenBlock.kind_of_add? {block block' : OpenBlock} {s : Stmt}
    (h : block.add? s = some block') :
    block'.kind = block.kind ∧ block'.inElse = block.inElse := by
  cases block with
  | branch c thenBody elseBody inElse line =>
      cases inElse <;> cases h <;> exact ⟨rfl, rfl⟩
  | forTo | whileDo =>
      cases h
      exact ⟨rfl, rfl⟩
  | classBody => cases h

namespace Builder

open Step

/-- A builder that still takes lines. -/
structure Live (b : Builder) : Prop where
  unfinished : b.finished = false
  unsealed : b.compiled.isSealed = false
  deep : 0 ≤ b.depth

theorem live_start (name : Text) : (start name).Live := ⟨rfl, rfl, Int.one_nonneg⟩

def withHeader (b : Builder) : Builder :=
  if b.hasHeader then b
  else
    { b with
      hasHeader := true
      compiled :=
        { b.compiled with
          lines := b.compiled.lines ++ [header b.compiled.program.params] } }

/-- The state after a line, given with its indentation, has been written. -/
def addLine (line : Text) (b : Builder) : Builder :=
  { b.withHeader with
    compiled :=
      { b.withHeader.compiled with lines := b.withHeader.compiled.lines ++ [line] } }

def addLines (lines : List Text) (b : Builder) : Builder :=
  lines.foldl (fun b line => b.addLine line) b

def addStmts (stmts : List Stmt) (b : Builder) : Builder :=
  stmts.foldl (fun b s => b.addStmt s) b

/-! ### What the operations leave alone -/

/-- Writing the header touches the lines and the flag, nothing else. -/
theorem withHeader_eq (b : Builder) :
    ∃ lines, b.withHeader =
      { b with hasHeader := true, compiled := { b.compiled with lines } } := by
  unfold withHeader
  split
  next h => exact ⟨b.compiled.lines, by rw [← h]⟩
  next => exact ⟨_, rfl⟩

/-- Adding a statement touches the body of the program or the open blocks, nothing else. -/
theorem addStmt_eq (b : Builder) (s : Stmt) :
    ∃ body frames, b.addStmt s =
      { b with
        compiled := { b.compiled with program := { b.compiled.program with body } }
        frames } := by
  unfold addStmt
  split
  next => exact ⟨_, b.frames, rfl⟩
  next frame frames _ =>
    split
    next block _ => exact ⟨b.compiled.program.body, { frame with block } :: frames, rfl⟩
    next => exact ⟨_, b.frames, rfl⟩

section Fields

variable (b : Builder) (line : Text) (s : Stmt)

@[simp] theorem addLine_depth : (b.addLine line).depth = b.depth := by
  obtain ⟨_, h⟩ := b.withHeader_eq
  simp [addLine, h]

@[simp] theorem addLine_frames : (b.addLine line).frames = b.frames := by
  obtain ⟨_, h⟩ := b.withHeader_eq
  simp [addLine, h]

@[simp] theorem addLine_openClass : (b.addLine line).openClass = b.openClass := by
  obtain ⟨_, h⟩ := b.withHeader_eq
  simp [addLine, h]

@[simp] theorem addLine_hasHeader : (b.addLine line).hasHeader = true := by
  obtain ⟨_, h⟩ := b.withHeader_eq
  simp [addLine, h]

@[simp] theorem addStmt_depth : (b.addStmt s).depth = b.depth := by
  obtain ⟨_, _, h⟩ := b.addStmt_eq s
  rw [h]

@[simp] theorem addStmt_openClass : (b.addStmt s).openClass = b.openClass := by
  obtain ⟨_, _, h⟩ := b.addStmt_eq s
  rw [h]

end Fields

variable {b : Builder}

theorem Live.addLine (live : b.Live) (line : Text) : (b.addLine line).Live := by
  obtain ⟨_, h⟩ := b.withHeader_eq
  simp only [Builder.addLine, h]
  exact ⟨live.unfinished, live.unsealed, live.deep⟩

theorem Live.addStmt (live : b.Live) (s : Stmt) : (b.addStmt s).Live := by
  obtain ⟨_, _, h⟩ := b.addStmt_eq s
  rw [h]
  exact ⟨live.unfinished, live.unsealed, live.deep⟩

theorem Live.addLines (live : b.Live) (lines : List Text) : (b.addLines lines).Live := by
  induction lines generalizing b with
  | nil => exact live
  | cons line lines ih => exact ih (live.addLine line)

theorem Live.moved (live : b.Live) {depth : Int} (deep : 0 ≤ depth) (frames : List Frame) :
    ({ b with depth, frames } : Builder).Live :=
  ⟨live.unfinished, live.unsealed, deep⟩

theorem Live.push (live : b.Live) (block : OpenBlock) : (b.push block).Live :=
  live.moved (Int.le_add_one live.deep) (⟨block, b.depth⟩ :: b.frames)

theorem Live.deeper (live : b.Live) : ({ b with depth := b.depth + 1 } : Builder).Live :=
  live.moved (Int.le_add_one live.deep) b.frames

/-- Lines and statements are kept apart, so the order of writing and adding does not matter. -/
theorem addLine_addStmt (b : Builder) (line : Text) (s : Stmt) :
    (b.addStmt s).addLine line = (b.addLine line).addStmt s := by
  cases b with
  | mk compiled depth hasHeader finished frames openClass =>
    cases hasHeader <;> cases frames with
    | nil => rfl
    | cons frame frames =>
        cases h : frame.block.add? s <;>
          simp [addLine, addStmt, withHeader, addToBody, h]

theorem addLines_append (b : Builder) (lines lines' : List Text) :
    b.addLines (lines ++ lines') = (b.addLines lines).addLines lines' :=
  List.foldl_append

theorem addLines_addStmt (b : Builder) (lines : List Text) (s : Stmt) :
    (b.addStmt s).addLines lines = (b.addLines lines).addStmt s := by
  induction lines generalizing b with
  | nil => rfl
  | cons line lines ih =>
      change ((b.addStmt s).addLine line).addLines lines = _
      rw [addLine_addStmt, ih]
      rfl

/-- Where the build stands does not matter for lines that come with their indentation. -/
theorem addLines_moved (b : Builder) (lines : List Text) (depth : Int) (frames : List Frame)
    (openClass : Option Class) :
    ({ b with depth, frames, openClass } : Builder).addLines lines =
      { b.addLines lines with depth, frames, openClass } := by
  induction lines generalizing b with
  | nil => rfl
  | cons line lines ih =>
      have first : ({ b with depth, frames, openClass } : Builder).addLine line =
          { b.addLine line with depth, frames, openClass } := by
        cases h : b.hasHeader <;> simp [addLine, withHeader, h]
      change Builder.addLines lines (Builder.addLine line _) = _
      rw [first]
      exact ih (b.addLine line)

theorem addLines_place (b : Builder) (lines : List Text) :
    b.addLines lines =
      { b.addLines lines with depth := b.depth, frames := b.frames, openClass := b.openClass } :=
  addLines_moved b lines b.depth b.frames b.openClass

@[simp] theorem addLines_depth (b : Builder) (lines : List Text) :
    (b.addLines lines).depth = b.depth := by
  rw [addLines_place]

@[simp] theorem addLines_frames (b : Builder) (lines : List Text) :
    (b.addLines lines).frames = b.frames := by
  rw [addLines_place]

@[simp] theorem addLines_openClass (b : Builder) (lines : List Text) :
    (b.addLines lines).openClass = b.openClass := by
  rw [addLines_place]

theorem addLines_push (b : Builder) (lines : List Text) (block : OpenBlock) :
    (b.push block).addLines lines = (b.addLines lines).push block := by
  simp only [push, addLines_depth, addLines_frames]
  rw [addLines_moved b lines _ _ b.openClass]
  simp only [← addLines_openClass b lines]

/-- Lines come after the header and in the order of writing. -/
theorem addLines_addLine_compiled (b : Builder) (lines : List Text) (last : Text) :
    ((b.addLines lines).addLine last).compiled =
      { b.compiled with lines := b.withHeader.compiled.lines ++ lines ++ [last] } := by
  induction lines generalizing b with
  | nil => cases h : b.hasHeader <;> simp [addLines, addLine, withHeader, h]
  | cons line lines ih =>
      refine (ih (b.addLine line)).trans ?_
      cases h : b.hasHeader <;> simp [addLine, withHeader, h]

/-- Statements that the innermost block takes stay in it. Here `fill` says what the block is with
a given body. -/
theorem addStmts_push {fill : List Stmt → OpenBlock}
    (takes : ∀ body s, (fill body).add? s = some (fill (body ++ [s]))) (b : Builder)
    (body stmts : List Stmt) :
    (b.push (fill body)).addStmts stmts = b.push (fill (body ++ stmts)) := by
  induction stmts generalizing body with
  | nil => simp [addStmts]
  | cons s stmts ih =>
      have first : (b.push (fill body)).addStmt s = b.push (fill (body ++ [s])) := by
        simp [addStmt, push, takes]
      change ((b.push (fill body)).addStmt s).addStmts stmts = _
      rw [first, ih, List.append_assoc]
      rfl

/-! ### The equations of the calls -/

theorem outcome_appendLine (unsealed : b.compiled.isSealed = false) (line : Text) :
    outcome (appendLine line) b =
      (.ok (), { b with compiled := { b.compiled with lines := b.compiled.lines ++ [line] } }) := by
  simp [appendLine, outcome_bind, Compiled.append, unsealed]

theorem outcome_ensureHeader (unsealed : b.compiled.isSealed = false) :
    outcome ensureHeader b = (.ok (), b.withHeader) := by
  cases h : b.hasHeader <;>
    simp [ensureHeader, withHeader, outcome_bind, outcome_appendLine, unsealed, h]

/-- A live builder writes a line at its depth. -/
theorem outcome_emit (live : b.Live) (text : Text) :
    outcome (emit text) b = (.ok (), b.addLine (indentation b.depth ++ text)) := by
  obtain ⟨lines, h⟩ := b.withHeader_eq
  have unsealed : b.withHeader.compiled.isSealed = false := by
    rw [h]
    exact live.unsealed
  have depth : b.withHeader.depth = b.depth := by rw [h]
  simp [emit, outcome_bind, live.unfinished, outcome_ensureHeader live.unsealed,
    outcome_appendLine unsealed, addLine, depth, Int.not_lt.2 live.deep]

/-- A plain call writes its line and adds its statement. -/
theorem outcome_emit_addStmt (live : b.Live) (text : Text) (s : Stmt) :
    outcome (do emit text; modify (addStmt s)) b =
      (.ok (), (b.addLine (indentation b.depth ++ text)).addStmt s) := by
  rw [outcome_bind_of_ok (outcome_emit live text), outcome_modify]

/-- An opening call writes its line and opens its block. -/
theorem outcome_emit_push (live : b.Live) (text : Text) (block : OpenBlock) :
    outcome (do emit text; modify (push block)) b =
      (.ok (), (b.addLine (indentation b.depth ++ text)).push block) := by
  rw [outcome_bind_of_ok (outcome_emit live text), outcome_modify]

theorem outcome_emitDeclarations (live : b.Live) (names : List Text) :
    outcome (emitDeclarations names) b =
      (.ok (), b.addLines (names.map fun name =>
        indentation b.depth ++ ("local " ++ name ++ " = " ++ logicalText false))) := by
  induction names generalizing b with
  | nil => rfl
  | cons name names ih =>
      rw [emitDeclarations, outcome_bind_of_ok (outcome_emit live _), ih (live.addLine _)]
      simp [addLines]

/-- The else part starts where the branch did, and its body one level deeper. -/
theorem outcome_beginElse {depth : Int} (live : ({ b with depth } : Builder).Live)
    {condition : Expr} {thenBody elseBody : List Stmt} {line : Nat} {frames : List Frame}
    (open_ : b.frames = ⟨.branch condition thenBody elseBody false line, depth⟩ :: frames) :
    outcome beginElse b =
      (.ok (),
        { b.addLine (indentation depth ++ "else") with
          depth := depth + 1
          frames := ⟨.branch condition thenBody elseBody true line, depth⟩ :: frames }) := by
  obtain ⟨compiled, _, hasHeader, finished, _, openClass⟩ := b
  subst open_
  simp only [beginElse, outcome_bind, outcome_get, outcome_set, Bool.false_eq_true, if_false,
    outcome_emit live, outcome_modify]
  cases hasHeader <;> rfl

theorem outcome_pop {kind : BlockKind} {frame : Frame} {frames : List Frame}
    (open_ : b.frames = frame :: frames) (same : frame.block.kind = kind) :
    outcome (pop kind) b = (.ok frame.block, { b with frames, depth := frame.depth }) := by
  simp [pop, outcome_bind, outcome_map, open_, same]

/-- Closing a block writes `end` at the depth of its opening line and adds the block as a
statement to the block around it. -/
theorem outcome_closeBlock {kind : BlockKind} {frame : Frame} {frames : List Frame} {s : Stmt}
    (open_ : b.frames = frame :: frames)
    (live : ({ b with frames, depth := frame.depth } : Builder).Live)
    (same : frame.block.kind = kind) (closed : frame.block.stmt? = some s) :
    outcome (closeBlock kind) b =
      (.ok (),
        (({ b with frames, depth := frame.depth } : Builder).addLine
          (indentation frame.depth ++ "end")).addStmt s) := by
  simp [closeBlock, outcome_bind, outcome_pop open_ same, outcome_emit live, closed]

theorem outcome_beginElse_push (live : b.Live) (condition : Expr) (thenBody elseBody : List Stmt)
    (line : Nat) :
    outcome beginElse (b.push (.branch condition thenBody elseBody false line)) =
      (.ok (), (b.addLine (indentation b.depth ++ "else")).push
        (.branch condition thenBody elseBody true line)) := by
  have back : ({ b.push (.branch condition thenBody elseBody false line) with
      depth := b.depth } : Builder).Live := live.moved live.deep _
  rw [outcome_beginElse back rfl]
  cases h : b.hasHeader <;> simp [addLine, withHeader, push, h]

theorem outcome_closeBlock_push (live : b.Live) (block : OpenBlock) {s : Stmt}
    (closed : block.stmt? = some s) :
    outcome (closeBlock block.kind) (b.push block) =
      (.ok (), (b.addLine (indentation b.depth ++ "end")).addStmt s) :=
  @outcome_closeBlock (b.push block) block.kind ⟨block, b.depth⟩ b.frames s rfl live rfl closed

/-- A class opens two levels: its own and that of its constructor. -/
theorem outcome_beginClass (live : b.Live) (closed : b.openClass = none) {name : Text}
    {base : Widget} (valid : base.isValid = true) (line : Nat) :
    outcome (beginClass name base line) b =
      (.ok (),
        { b.addLines
            [indentation b.depth ++ ("class " ++ name ++ " extends " ++ base.name),
              indentation (b.depth + 1) ++ "constructor()",
              indentation (b.depth + 2) ++ "super()"] with
          depth := b.depth + 2
          frames := ⟨.classBody, b.depth⟩ :: b.frames
          openClass := some { name, base, line } }) := by
  have deeper : b.depth + 2 = b.depth + 1 + 1 := by omega
  have opened := (live.addLine
    (indentation b.depth ++ ("class " ++ name ++ " extends " ++ base.name))).push .classBody
  simp only [beginClass, valid, Bool.not_true, Bool.false_eq_true, if_false, outcome_bind,
    outcome_get, closed, outcome_emit live, outcome_modify, outcome_emit opened]
  rw [outcome_emit (opened.addLine _).deeper]
  cases h : b.hasHeader <;> simp [addLines, addLine, withHeader, push, h, deeper]

theorem outcome_classProperty (live : b.Live) {c : Class} (open_ : b.openClass = some c)
    (name : Text) (value : Expr) (line : Nat) :
    outcome (classProperty name value line) b =
      (.ok (),
        { b.addLine (indentation b.depth ++ ("this." ++ name ++ " = " ++ value.text)) with
          openClass := some { c with properties := c.properties ++ [⟨name, value, line⟩] } }) := by
  simp [classProperty, outcome_bind, open_, outcome_emit live]

/-- Ending a class closes both of its levels and files the class. -/
theorem outcome_endClass (live : b.Live) {c : Class} (open_ : b.openClass = some c)
    (inner : 0 ≤ b.depth - 1) {depth : Int} (outer : 0 ≤ depth) {frames : List Frame}
    (top : b.frames = ⟨.classBody, depth⟩ :: frames) :
    outcome endClass b =
      (.ok (),
        let b' := b.addLines [indentation (b.depth - 1) ++ "end", indentation depth ++ "end"]
        { b' with
          compiled :=
            { b'.compiled with
              program :=
                { b.compiled.program with classes := b.compiled.program.classes ++ [c] } }
          depth
          frames
          openClass := none }) := by
  obtain ⟨compiled, level, hasHeader, finished, _, _⟩ := b
  subst open_ top
  have left := live.moved inner (⟨.classBody, depth⟩ :: frames)
  simp only [endClass, outcome_bind, outcome_get, outcome_modify, outcome_emit left]
  rw [@outcome_pop _ .classBody ⟨.classBody, depth⟩ frames (addLine_frames _ _) rfl]
  simp only [outcome_emit ((left.addLine _).moved outer frames)]
  cases hasHeader <;> simp [addLines, addLine, withHeader]

theorem outcome_setParams (first : b.hasHeader = false) (names : List Text) :
    outcome (setParams names) b =
      (.ok (),
        { b with
          compiled :=
            { b.compiled with program := { b.compiled.program with params := names } } }) := by
  simp [setParams, outcome_bind, first]

/-- With every block closed, finishing writes the last `end` and hands the program over. -/
theorem outcome_finish (live : b.Live) (closed : b.frames = []) :
    outcome finish b =
      (.ok (b.addLine "end").compiled, { b.addLine "end" with finished := true }) := by
  obtain ⟨⟨lines, program, _⟩, depth, hasHeader, _, frames, openClass⟩ := b
  obtain ⟨rfl, rfl, _⟩ := live
  subst closed
  cases hasHeader <;> rfl

/-! ### Sequences of calls -/

/-- A sequence of calls all of which succeed, and the state it leaves. -/
inductive Performs : Builder → List Call → Builder → Prop
  | nil (b : Builder) : Performs b [] b
  | cons {b b' b'' : Builder} {c : Call} {cs : List Call} (first : b.call c = (.ok (), b'))
      (rest : Performs b' cs b'') : Performs b (c :: cs) b''

theorem call_eq (b : Builder) (c : Call) : b.call c = outcome (perform c) b := rfl

namespace Performs

variable {b b' b'' : Builder} {c : Call} {cs cs' : List Call}

theorem single (h : b.call c = (.ok (), b')) : Performs b [c] b' :=
  .cons h (.nil b')

theorem single_inv (h : Performs b [c] b') : b.call c = (.ok (), b') := by
  cases h with
  | cons call rest =>
      cases rest
      exact call

theorem unique (h : Performs b cs b') (h' : Performs b cs b'') : b' = b'' := by
  induction h with
  | nil =>
      cases h'
      rfl
  | cons call _ ih =>
      cases h' with
      | cons call' rest' =>
          rw [call] at call'
          cases call'
          exact ih rest'

theorem append (first : Performs b cs b') (rest : Performs b' cs' b'') :
    Performs b (cs ++ cs') b'' := by
  induction first with
  | nil => exact rest
  | cons call _ ih => exact .cons call (ih rest)

theorem append_inv (h : Performs b (cs ++ cs') b'') :
    ∃ b', Performs b cs b' ∧ Performs b' cs' b'' := by
  induction cs generalizing b with
  | nil => exact ⟨b, .nil b, h⟩
  | cons c cs ih =>
      cases h with
      | cons call rest =>
          obtain ⟨b', first, rest⟩ := ih rest
          exact ⟨b', .cons call first, rest⟩

end Performs

end Builder

end PrgScript
