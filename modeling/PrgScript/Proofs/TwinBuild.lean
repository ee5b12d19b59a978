import PrgScript.Proofs.Twin
import PrgScript.Proofs.View

/-!
# Building programs that look the same

A builder that is given calls as they are seen through a view builds what is seen of
the program it would have built. `Builder.Shown` relates the two builds: the program,
the open blocks and the open class of the second one are those of the first one as
they are seen, and the lines of the two listings look the same. The words of a
listing are not looked at through the view, so the lines themselves may differ.

Each call keeps the two builds related, and is refused in both or in none.
-/

namespace PrgScript

open Step

def OpenBlock.seen (v : View) : OpenBlock → OpenBlock
  | .branch c thenBody elseBody inElse line =>
    .branch (c.seen v) (Stmt.seenAll v thenBody) (Stmt.seenAll v elseBody) inElse (v.line line)
  | .forTo counter start limit step body line =>
    .forTo (v.name counter) (start.seen v) (limit.seen v) (step.map (Expr.seen v))
      (Stmt.seenAll v body) (v.line line)
  | .whileDo c body line => .whileDo (c.seen v) (Stmt.seenAll v body) (v.line line)
  | .classBody => .classBody

def Frame.seen (v : View) (frame : Frame) : Frame := ⟨frame.block.seen v, frame.depth⟩

namespace OpenBlock

variable (v : View)

@[simp] theorem seen_kind (block : OpenBlock) : (block.seen v).kind = block.kind := by
  cases block <;> rfl

theorem seen_add? (s : Stmt) (block : OpenBlock) :
    (block.seen v).add? (s.seen v) = (block.add? s).map (OpenBlock.seen v) := by
  cases block with
  | branch c thenBody elseBody inElse line =>
      cases inElse <;> simp only [seen, add?, Option.map_some, Stmt.seenAll_append, Stmt.seenAll]
  | classBody => rfl
  | _ => simp only [seen, add?, Option.map_some, Stmt.seenAll_append, Stmt.seenAll]

theorem seen_stmt? (block : OpenBlock) :
    (block.seen v).stmt? = block.stmt?.map (Stmt.seen v) := by
  cases block <;> simp [seen, stmt?, Stmt.seen]

end OpenBlock

/-- The second program is what is seen of the first one, and the listings look the same. -/
structure Compiled.Shown (v : View) (c c' : Compiled) : Prop where
  lines : c'.lines.map v.name = c.lines.map v.name
  program : c'.program = c.program.seen v
  isSealed : c'.isSealed = c.isSealed

namespace Builder

/-- The second build is what is seen of the first one. -/
structure Shown (v : View) (b b' : Builder) : Prop where
  lines : b'.compiled.lines.map v.name = b.compiled.lines.map v.name
  program : b'.compiled.program = b.compiled.program.seen v
  isSealed : b'.compiled.isSealed = b.compiled.isSealed
  depth : b'.depth = b.depth
  hasHeader : b'.hasHeader = b.hasHeader
  finished : b'.finished = b.finished
  frames : b'.frames = b.frames.map (Frame.seen v)
  openClass : b'.openClass = b.openClass.map (Class.seen v)

/-- Two steps of building keep the second build what is seen of the first one, and are refused in
both or in none. -/
abbrev Follows {α : Type} (v : View) (R : α → α → Prop) (x y : Build α) : Prop :=
  Twin (Shown v) (fun _ _ => True) R x y

namespace Follows

variable {v : View}

theorem appendLine {line line' : Text} (same : v.name line' = v.name line) :
    Follows v Eq (appendLine line) (appendLine line') := by
  refine Twin.get.bind fun b b' shown => ?_
  simp only [Compiled.append, shown.isSealed]
  cases sealed : b.compiled.isSealed with
  | true => exact .throw trivial
  | false =>
      refine .set { shown with lines := ?_, isSealed := ?_ }
      · simp only [List.map_append, shown.lines, List.map_cons, same, List.map_nil]
      · rfl

theorem ensureHeader : Follows v Eq ensureHeader ensureHeader := by
  refine Twin.get.bind fun b b' shown => .ite (by rw [shown.hasHeader]) (.pure rfl) ?_
  refine .bind (.set { shown with hasHeader := rfl }) fun _ _ _ => appendLine ?_
  simp only [header, View.name_append, View.name_join, shown.program, Program.seen, List.map_map]
  congr 3
  exact List.map_congr_left fun name _ => v.name_name name

theorem emit {text text' : Text} (same : v.name text' = v.name text) :
    Follows v Eq (emit text) (emit text') := by
  refine Twin.get.bind fun b b' shown => .guard (by rw [shown.finished]) trivial ?_
  refine ensureHeader.bind fun _ _ _ => Twin.get.bind fun b b' shown => ?_
  refine .guard (by rw [shown.depth]) trivial (Twin.get.bind fun b b' shown => appendLine ?_)
  rw [View.name_append, View.name_append, shown.depth, same]

/-- A line whose text is the same in both builds. -/
theorem emitSame (text : Text) : Follows v Eq (Builder.emit text) (Builder.emit text) := emit rfl

theorem addStmt (s : Stmt) :
    Follows v Eq (modify (Builder.addStmt s)) (modify (Builder.addStmt (s.seen v))) := by
  have body (b b' : Builder) (shown : Shown v b b') :
      Shown v (b.addToBody s) (b'.addToBody (s.seen v)) := by
    refine { shown with program := ?_ }
    simp only [addToBody, shown.program, Program.seen, Stmt.seenAll_append, Stmt.seenAll]
  refine .modifyState fun b b' shown => ?_
  unfold Builder.addStmt
  rw [shown.frames]
  cases whole : b.frames with
  | nil => exact body b b' shown
  | cons frame frames =>
      rw [List.map_cons]
      dsimp only [Frame.seen]
      rw [OpenBlock.seen_add?]
      cases frame.block.add? s with
      | none => exact body b b' shown
      | some block => exact { shown with frames := rfl }

theorem push (block : OpenBlock) :
    Follows v Eq (modify (Builder.push block)) (modify (Builder.push (block.seen v))) := by
  refine .modifyState fun b b' shown => { shown with depth := ?_, frames := ?_ }
  · simp only [Builder.push, shown.depth]
  · simp only [Builder.push, shown.depth, shown.frames, List.map_cons, Frame.seen]

theorem setDepth (f : Int → Int) :
    Follows v Eq (modify fun b => { b with depth := f b.depth })
      (modify fun b => { b with depth := f b.depth }) := by
  refine .modifyState fun b b' shown => { shown with depth := ?_ }
  exact congrArg f shown.depth

theorem pop (kind : BlockKind) :
    Follows v (fun block block' => block' = block.seen v)
      (Builder.pop kind) (Builder.pop kind) := by
  refine Twin.get.bind fun b b' shown => ?_
  rw [shown.frames]
  cases b.frames with
  | nil => exact .throw trivial
  | cons frame frames =>
      rw [List.map_cons]
      refine .ite (by simp only [Frame.seen, OpenBlock.seen_kind]) ?_ (.throw trivial)
      exact .bind (.set { shown with depth := rfl, frames := rfl }) fun _ _ _ => .pure rfl

theorem setParams (names : List Text) :
    Follows v Eq (Builder.setParams names) (Builder.setParams (names.map v.name)) := by
  refine Twin.get.bind fun b b' shown => ?_
  refine .guard (by rw [shown.hasHeader]) trivial (.set { shown with program := ?_ })
  simp only [shown.program, Program.seen]

theorem emitDeclarations (names : List Text) :
    Follows v Eq (Builder.emitDeclarations names)
      (Builder.emitDeclarations (names.map v.name)) := by
  induction names with
  | nil => exact .pure rfl
  | cons name names ih =>
      refine .bind (emit ?_) fun _ _ _ => ih
      simp only [View.name_append, View.name_name]

theorem beginElse : Follows v Eq Builder.beginElse Builder.beginElse := by
  refine Twin.get.bind fun b b' shown => ?_
  rw [shown.frames]
  cases b.frames with
  | nil => exact .throw trivial
  | cons frame frames =>
      obtain ⟨block, depth⟩ := frame
      cases block with
      | branch c thenBody elseBody inElse line =>
          refine .guard Iff.rfl trivial ?_
          refine .bind (.set { shown with depth := rfl, frames := rfl }) fun _ _ _ => ?_
          refine (emitSame _).bind fun _ _ _ => ?_
          refine .modifyState fun b b' shown => { shown with depth := ?_, frames := rfl }
          rw [shown.depth]
      | _ => exact .throw trivial

theorem closeBlock (kind : BlockKind) :
    Follows v Eq (Builder.closeBlock kind) (Builder.closeBlock kind) := by
  refine (pop kind).bind fun block block' same => (emitSame _).bind fun _ _ _ => ?_
  subst same
  rw [OpenBlock.seen_stmt?]
  cases block.stmt? with
  | none => exact .pure rfl
  | some s => exact addStmt s

theorem beginClass (name : Text) (base : Widget) (line : Nat) :
    Follows v Eq (Builder.beginClass name base line)
      (Builder.beginClass (v.name name) base (v.line line)) := by
  refine .guard Iff.rfl trivial (Twin.get.bind fun b b' shown => ?_)
  rw [shown.openClass]
  cases b.openClass with
  | some c => exact .throw trivial
  | none =>
      refine .bind (emit (by simp only [View.name_append, View.name_name])) fun _ _ _ => ?_
      refine (push .classBody).bind fun _ _ _ => (emitSame _).bind fun _ _ _ => ?_
      refine (setDepth (· + 1)).bind fun _ _ _ => (emitSame _).bind fun _ _ _ => ?_
      exact .modifyState fun b b' shown => { shown with openClass := rfl }

theorem classProperty (name : Text) (value : Expr) (line : Nat) :
    Follows v Eq (Builder.classProperty name value line)
      (Builder.classProperty (v.name name) (value.seen v) (v.line line)) := by
  refine Twin.get.bind fun b b' shown => ?_
  rw [shown.openClass]
  cases b.openClass with
  | none => exact .throw trivial
  | some c =>
      refine .bind (emit ?_) fun _ _ _ => .modifyState fun b b' shown =>
        { shown with openClass := ?_ }
      · simp only [View.name_append, View.name_name, Expr.name_text]
      · simp only [Option.map_some, Class.seen, List.map_append, List.map_cons, List.map_nil,
          Property.seen]

theorem endClass : Follows v Eq Builder.endClass Builder.endClass := by
  refine Twin.get.bind fun b b' shown => ?_
  rw [shown.openClass]
  cases b.openClass with
  | none => exact .throw trivial
  | some c =>
      refine (setDepth (· - 1)).bind fun _ _ _ => (emitSame _).bind fun _ _ _ => ?_
      refine (pop _).bind fun _ _ _ => (emitSame _).bind fun _ _ _ => ?_
      refine .modifyState fun b b' shown => { shown with program := ?_, openClass := rfl }
      simp only [shown.program, Program.seen, List.map_append, List.map_cons, List.map_nil]

theorem finish : Follows v (Compiled.Shown v) Builder.finish Builder.finish := by
  refine Twin.get.bind fun b b' shown => .guard (by rw [shown.finished]) trivial ?_
  rw [shown.frames]
  cases b.frames with
  | cons frame frames => exact .throw trivial
  | nil =>
      refine ensureHeader.bind fun _ _ _ => .bind (appendLine rfl) fun _ _ _ => ?_
      refine .bind (.modifyState fun b b' shown => { shown with finished := rfl }) fun _ _ _ => ?_
      exact Twin.get.bind fun b b' shown => .pure ⟨shown.lines, shown.program, shown.isSealed⟩

end Follows

def Call.seen (v : View) : Call → Call
  | .setParams names => .setParams (names.map v.name)
  | .declare names line => .declare (names.map v.name) (v.line line)
  | .assign name value line => .assign (v.name name) (value.seen v) (v.line line)
  | .beginIf condition line => .beginIf (condition.seen v) (v.line line)
  | .beginElse => .beginElse
  | .endIf => .endIf
  | .beginFor counter start limit step line =>
    .beginFor (v.name counter) (start.seen v) (limit.seen v) (step.map (Expr.seen v)) (v.line line)
  | .endFor => .endFor
  | .beginWhile condition line => .beginWhile (condition.seen v) (v.line line)
  | .endWhile => .endWhile
  | .setColor colors line => .setColor colors (v.line line)
  | .say row col value line => .say (row.seen v) (col.seen v) (value.seen v) (v.line line)
  | .print values newline line => .print (values.map (Expr.seen v)) newline (v.line line)
  | .finishScript line => .finishScript (v.line line)
  | .beginClass name base line => .beginClass (v.name name) base (v.line line)
  | .classProperty name value line => .classProperty (v.name name) (value.seen v) (v.line line)
  | .endClass => .endClass
  | .finish => .finish

/-- A call and what is seen of it keep the second build what is seen of the first one. -/
theorem Follows.perform {v : View} (c : Call) :
    Follows v Eq (Builder.perform c) (Builder.perform (c.seen v)) := by
  cases c with
  | setParams names => exact setParams names
  | declare names line =>
      exact (emitDeclarations names).bind fun _ _ _ => addStmt (.declare names line)
  | assign name value line =>
      refine .bind (emit ?_) fun _ _ _ => addStmt (.assign name value line)
      simp only [View.name_append, View.name_name, Expr.name_text]
  | beginIf condition line =>
      refine .bind (emit ?_) fun _ _ _ => push (.branch condition [] [] false line)
      simp only [View.name_append, Expr.name_text]
  | beginElse => exact beginElse
  | endIf => exact closeBlock _
  | endFor => exact closeBlock _
  | endWhile => exact closeBlock _
  | beginFor counter start limit step line =>
      refine .bind (emit ?_) fun _ _ _ => push (.forTo counter start limit step [] line)
      cases step <;>
        simp only [View.name_append, View.name_name, Expr.name_text, Option.map_some,
          Option.map_none]
  | beginWhile condition line =>
      refine .bind (emit ?_) fun _ _ _ => push (.whileDo condition [] line)
      simp only [View.name_append, Expr.name_text]
  | setColor colors line => exact (emitSame _).bind fun _ _ _ => addStmt (.setColor colors line)
  | say row col value line =>
      refine .bind (emit ?_) fun _ _ _ => addStmt (.say row col value line)
      simp only [View.name_append, Expr.name_text]
  | print values newline line =>
      refine .bind (emit ?_) fun _ _ _ => addStmt (.print values newline line)
      simp only [View.name_append, View.name_join, List.map_map]
      congr 3
      exact List.map_congr_left fun e _ => Expr.name_text v e
  | finishScript line => exact (emitSame _).bind fun _ _ _ => addStmt (.finish line)
  | beginClass name base line => exact beginClass name base line
  | classProperty name value line => exact classProperty name value line
  | endClass => exact endClass
  | finish => exact finish.discard

def seen (v : View) (b : Builder) : Builder :=
  { b with
    compiled := b.compiled.seen v
    frames := b.frames.map (Frame.seen v)
    openClass := b.openClass.map (Class.seen v) }

theorem shown_seen (v : View) (b : Builder) : Shown v b (b.seen v) where
  lines := by
    simp only [seen, Compiled.seen, List.map_map]
    exact List.map_congr_left fun line _ => v.name_name line
  program := rfl
  isSealed := rfl
  depth := rfl
  hasHeader := rfl
  finished := rfl
  frames := rfl
  openClass := rfl

/-- Builds that show the same look the same. -/
theorem Shown.seen_eq {v : View} {b b' d : Builder} (h : Shown v b d) (h' : Shown v b' d) :
    b.seen v = b'.seen v := by
  have compiled : b.compiled.seen v = b'.compiled.seen v := by
    simp only [Compiled.seen, ← h.lines, ← h'.lines, ← h.program, ← h'.program, ← h.isSealed,
      ← h'.isSealed]
  simp only [seen, compiled, ← h.depth, ← h'.depth, ← h.hasHeader, ← h'.hasHeader, ← h.finished,
    ← h'.finished, ← h.frames, ← h'.frames, ← h.openClass, ← h'.openClass]

/-- Two steps that are followed by the same step end alike on builds that look the same. -/
theorem Follows.both {α : Type} {v : View} {R : α → α → Prop} {x x' y : Build α}
    (h : Follows v R x y) (h' : Follows v R x' y) {b b' : Builder} (same : b.seen v = b'.seen v) :
    Ends (fun _ _ => True) (fun a a' => ∃ d, R a d ∧ R a' d) (outcome x b).1 (outcome x' b').1 ∧
      (outcome x b).2.seen v = (outcome x' b').2.seen v := by
  obtain ⟨ends, after⟩ := h b (b.seen v) (shown_seen v b)
  obtain ⟨ends', after'⟩ := h' b' (b'.seen v) (shown_seen v b')
  rw [← same] at ends' after'
  refine ⟨?_, after.seen_eq after'⟩
  generalize (outcome x b).1 = r at ends ⊢
  generalize (outcome x' b').1 = r' at ends' ⊢
  generalize (outcome y (b.seen v)).1 = d at ends ends'
  cases ends with
  | ok related =>
      cases ends' with
      | ok related' => exact .ok ⟨_, related, related'⟩
  | error => cases ends' with | error => exact .error trivial

/-- Calls that look the same, to builds that look the same, are both refused or both taken. -/
theorem call_alike {v : View} {b b' : Builder} {c c' : Call} (builds : b.seen v = b'.seen v)
    (calls : c.seen v = c'.seen v) :
    Ends (fun _ _ => True) Eq (b.call c).1 (b'.call c').1 ∧
      (b.call c).2.seen v = (b'.call c').2.seen v := by
  have first := Follows.perform (v := v) c
  rw [calls] at first
  obtain ⟨ends, after⟩ := first.both (Follows.perform c') builds
  exact ⟨ends.mono fun _ _ _ => rfl, after⟩

/-- Builds that look the same are finished with programs and listings that look the same. -/
theorem finish_alike {v : View} {b b' : Builder} (builds : b.seen v = b'.seen v) :
    Ends (fun _ _ => True) (InvImage Eq (Compiled.seen v))
        (outcome finish b).1 (outcome finish b').1 ∧
      (outcome finish b).2.seen v = (outcome finish b').2.seen v := by
  obtain ⟨ends, after⟩ := Follows.finish.both Follows.finish builds
  refine ⟨ends.mono fun c c' ⟨d, shown, shown'⟩ => ?_, after⟩
  simp only [InvImage, Compiled.seen, ← shown.lines, ← shown'.lines, ← shown.program,
    ← shown'.program, ← shown.isSealed, ← shown'.isSealed]

end Builder

end PrgScript
