import PrgScript.Proofs.Builder

/-!
# Program trees and the calls that build them

A script is a tree: statements hold statements, and a builder is told about
them by a flat sequence of calls. This module gives the tree, the calls that
flatten it, and the two things a build should produce from it, the executable
statements and the indented listing, both by recursion on the tree.

`performs_forest` is the link: from any live builder the calls of a sequence of
trees all succeed and leave the lines of its listing and its statements, the
latter in whatever block is innermost. The builder's stack of open blocks does
not appear in that statement; it is pushed and popped inside the induction.
-/

namespace PrgScript

open Step

/-- A statement that holds no other statement. -/
inductive Plain where
  | declare (names : List Text) (line : Nat)
  | assign (name : Text) (value : Expr) (line : Nat)
  | setColor (colors : ColorPair) (line : Nat)
  | say (row col value : Expr) (line : Nat)
  | print (values : List Expr) (newline : Bool) (line : Nat)
  | finish (line : Nat)

namespace Plain

def call : Plain → Builder.Call
  | .declare names line => .declare names line
  | .assign name value line => .assign name value line
  | .setColor colors line => .setColor colors line
  | .say row col value line => .say row col value line
  | .print values newline line => .print values newline line
  | .finish line => .finishScript line

def stmt : Plain → Stmt
  | .declare names line => .declare names line
  | .assign name value line => .assign name value line
  | .setColor colors line => .setColor colors line
  | .say row col value line => .say row col value line
  | .print values newline line => .print values newline line
  | .finish line => .finish line

/-- The listing of a plain statement, without indentation: one line, or one a variable for a
declaration. -/
def texts : Plain → List Text
  | .declare names _ => names.map fun name => "local " ++ name ++ " = .F."
  | .assign name value _ => [name ++ " = " ++ value.text]
  | .setColor colors _ =>
    ["setcolor(" ++ colors.foreground.text ++ ", " ++ colors.background.text ++ ")"]
  | .say row col value _ =>
    ["say(" ++ row.text ++ ", " ++ col.text ++ ", " ++ value.text ++ ")"]
  | .print values newline _ =>
    [(if newline then "println(" else "print(") ++ Text.join ", " (values.map Expr.text) ++ ")"]
  | .finish _ => ["return"]

end Plain

/-- A statement with everything it holds. A branch without an else part differs from one whose
else part is empty: only the second is listed with an `else`. -/
inductive Tree where
  | plain (p : Plain)
  | branch (condition : Expr) (thenBody : List Tree) (line : Nat)
  | branchElse (condition : Expr) (thenBody elseBody : List Tree) (line : Nat)
  | forTo (counter : Text) (start limit : Expr) (step : Option Expr) (body : List Tree)
      (line : Nat)
  | whileDo (condition : Expr) (body : List Tree) (line : Nat)

namespace Tree

mutual

def stmt : Tree → Stmt
  | .plain p => p.stmt
  | .branch condition thenBody line => .branch condition (stmts thenBody) [] line
  | .branchElse condition thenBody elseBody line =>
    .branch condition (stmts thenBody) (stmts elseBody) line
  | .forTo counter start limit step body line => .forTo counter start limit step (stmts body) line
  | .whileDo condition body line => .whileDo condition (stmts body) line

def stmts : List Tree → List Stmt
  | [] => []
  | t :: ts => t.stmt :: stmts ts

end

mutual

/-- The calls that report a tree, those of its parts between its opening and its end. -/
def calls : Tree → List Builder.Call
  | .plain p => [p.call]
  | .branch condition thenBody line =>
    .beginIf condition line :: (callsOf thenBody ++ [.endIf])
  | .branchElse condition thenBody elseBody line =>
    .beginIf condition line :: (callsOf thenBody ++ .beginElse :: (callsOf elseBody ++ [.endIf]))
  | .forTo counter start limit step body line =>
    .beginFor counter start limit step line :: (callsOf body ++ [.endFor])
  | .whileDo condition body line => .beginWhile condition line :: (callsOf body ++ [.endWhile])

def callsOf : List Tree → List Builder.Call
  | [] => []
  | t :: ts => t.calls ++ callsOf ts

end

/-- A line of a listing: four blanks for each level, then the text. -/
def indented (depth : Nat) (text : Text) : Text := Text.blanks (4 * depth) ++ text

mutual

/-- The listing of a tree at a depth; what it holds stands one level deeper. -/
def listing (depth : Nat) : Tree → List Text
  | .plain p => p.texts.map (indented depth)
  | .branch condition thenBody _ =>
    indented depth ("if " ++ condition.text ++ " then") ::
      (listingOf (depth + 1) thenBody ++ [indented depth "end"])
  | .branchElse condition thenBody elseBody _ =>
    indented depth ("if " ++ condition.text ++ " then") ::
      (listingOf (depth + 1) thenBody ++ indented depth "else" ::
        (listingOf (depth + 1) elseBody ++ [indented depth "end"]))
  | .forTo counter start limit step body _ =>
    indented depth ("for " ++ counter ++ " = " ++ start.text ++ " to " ++ limit.text ++ " step " ++
        step.elim (Text.ofString "1") Expr.text ++ " do") ::
      (listingOf (depth + 1) body ++ [indented depth "end"])
  | .whileDo condition body _ =>
    indented depth ("while " ++ condition.text ++ " do") ::
      (listingOf (depth + 1) body ++ [indented depth "end"])

def listingOf (depth : Nat) : List Tree → List Text
  | [] => []
  | t :: ts => t.listing depth ++ listingOf depth ts

end

/-- Induction on a sequence of trees: the parts of the first tree and the trees behind it. -/
theorem forest_induction {motive : List Tree → Prop} (nil : motive [])
    (plain : ∀ p ts, motive ts → motive (.plain p :: ts))
    (branch : ∀ condition thenBody line ts, motive thenBody → motive ts →
      motive (.branch condition thenBody line :: ts))
    (branchElse : ∀ condition thenBody elseBody line ts, motive thenBody → motive elseBody →
      motive ts → motive (.branchElse condition thenBody elseBody line :: ts))
    (forTo : ∀ counter start limit step body line ts, motive body → motive ts →
      motive (.forTo counter start limit step body line :: ts))
    (whileDo : ∀ condition body line ts, motive body → motive ts →
      motive (.whileDo condition body line :: ts)) (ts : List Tree) : motive ts := by
  refine @Tree.rec_1 (fun t => ∀ ts, motive ts → motive (t :: ts)) motive ?_ ?_ ?_ ?_ ?_ nil
    (fun t ts head tail => head ts tail) ts
  · exact fun p ts => plain p ts
  · exact fun condition thenBody line inner ts => branch condition thenBody line ts inner
  · exact fun condition thenBody elseBody line inner inner' ts =>
      branchElse condition thenBody elseBody line ts inner inner'
  · exact fun counter start limit step body line inner ts =>
      forTo counter start limit step body line ts inner
  · exact fun condition body line inner ts => whileDo condition body line ts inner

end Tree

open Builder

theorem Tree.indented_eq (depth : Nat) (text : Text) :
    Tree.indented depth text = indentation depth ++ text := by
  simp [Tree.indented, indentation]

/-- A plain statement leaves its lines and its executable form. -/
theorem Plain.call_eq {b : Builder} (live : b.Live) {depth : Nat} (level : b.depth = depth)
    (p : Plain) :
    b.call p.call =
      (.ok (), (b.addLines (p.texts.map (Tree.indented depth))).addStmt p.stmt) := by
  have oneLine (text : Text) (s : Stmt) :
      outcome (do emit text; modify (addStmt s)) b =
        (.ok (), (b.addLines ([text].map (Tree.indented depth))).addStmt s) := by
    simp [outcome_emit_addStmt live, level, addLines, Tree.indented_eq]
  cases p with
  | declare names line =>
      change outcome (do emitDeclarations names; modify (addStmt (.declare names line))) b = _
      rw [outcome_bind_of_ok (outcome_emitDeclarations live names), outcome_modify]
      have start : Text.ofString " = .F." = " = " ++ logicalText false := by decide
      simp [texts, stmt, Tree.indented_eq, level, start, Function.comp_def]
  | assign name value line => exact oneLine _ _
  | setColor colors line => exact oneLine _ _
  | say row col value line => exact oneLine _ _
  | print values newline line => cases newline <;> exact oneLine _ _
  | finish line => exact oneLine _ _

namespace Builder

/-- The state after trees have been reported: the lines of their listing are written, and their
executable forms are in the innermost block. -/
def grow (depth : Nat) (ts : List Tree) (b : Builder) : Builder :=
  (b.addLines (Tree.listingOf depth ts)).addStmts (Tree.stmts ts)

theorem grow_cons (depth : Nat) (t : Tree) (ts : List Tree) (b : Builder) :
    b.grow depth (t :: ts) = ((b.addLines (t.listing depth)).addStmt t.stmt).grow depth ts := by
  simp only [grow, addLines_addStmt, Tree.listingOf, addLines_append, Tree.stmts]
  rfl

theorem grow_push {fill : List Stmt → OpenBlock}
    (takes : ∀ body s, (fill body).add? s = some (fill (body ++ [s]))) (b : Builder)
    (body : List Stmt) (depth : Nat) (ts : List Tree) :
    (b.push (fill body)).grow depth ts =
      (b.addLines (Tree.listingOf depth ts)).push (fill (body ++ Tree.stmts ts)) := by
  rw [grow, addLines_push, addStmts_push takes]

/-- From any live builder the calls of the trees succeed and leave their listing and their
executable forms. -/
def Grows (ts : List Tree) : Prop :=
  ∀ (b : Builder) (depth : Nat), b.Live → b.depth = depth →
    Performs b (Tree.callsOf ts) (b.grow depth ts)

section Block

variable {b : Builder} {depth : Nat} {ts : List Tree}

/-- A part of a block, its opening line written, goes into the block: nothing of it is seen
outside but the lines. -/
theorem performs_part {fill : List Stmt → OpenBlock}
    (takes : ∀ body s, (fill body).add? s = some (fill (body ++ [s]))) (inner : Grows ts)
    (live : b.Live) (level : b.depth = depth) :
    Performs (b.push (fill [])) (Tree.callsOf ts)
      ((b.addLines (Tree.listingOf (depth + 1) ts)).push (fill (Tree.stmts ts))) := by
  have pushed : (b.push (fill [])).Live := live.push _
  have deeper : (b.push (fill [])).depth = (depth + 1 : Nat) := by simp [push, level]
  have performs := inner _ _ pushed deeper
  rwa [grow_push takes, List.nil_append] at performs

/-- A block is its opening line, its part one level deeper, and `end`; as a statement it goes to
the block around it. -/
theorem performs_block {fill : List Stmt → OpenBlock}
    (takes : ∀ body s, (fill body).add? s = some (fill (body ++ [s]))) (inner : Grows ts)
    (live : b.Live) (level : b.depth = depth) {opening closing : Call} {head : Text} {s : Stmt}
    (opens : b.call opening = (.ok (), (b.addLine (indentation b.depth ++ head)).push (fill [])))
    (closes : ∀ {b : Builder}, b.Live → (b.push (fill (Tree.stmts ts))).call closing =
      (.ok (), (b.addLine (indentation b.depth ++ "end")).addStmt s)) :
    Performs b (opening :: (Tree.callsOf ts ++ [closing]))
      ((b.addLines (Tree.indented depth head ::
        (Tree.listingOf (depth + 1) ts ++ [Tree.indented depth "end"]))).addStmt s) := by
  have started := live.addLine (Tree.indented depth head)
  have part := performs_part takes inner started ((b.addLine_depth _).trans level)
  have closed := closes (started.addLines (Tree.listingOf (depth + 1) ts))
  simp only [addLines_depth, addLine_depth, level, ← Tree.indented_eq] at opens closed
  refine .cons opens (part.append (.single ?_))
  rw [closed]
  simp [addLines]

/-- A branch with an else part has two parts, the second behind `else`. -/
theorem performs_branchElse {condition : Expr} {thenBody elseBody : List Tree}
    (innerThen : Grows thenBody) (innerElse : Grows elseBody) (line : Nat) (live : b.Live)
    (level : b.depth = depth) :
    Performs b (Tree.branchElse condition thenBody elseBody line).calls
      ((b.addLines ((Tree.branchElse condition thenBody elseBody line).listing depth)).addStmt
        (Tree.branchElse condition thenBody elseBody line).stmt) := by
  have takesThen (body : List Stmt) (s : Stmt) :
      (OpenBlock.branch condition body [] false line).add? s =
        some (.branch condition (body ++ [s]) [] false line) := rfl
  have takesElse (body : List Stmt) (s : Stmt) :
      (OpenBlock.branch condition (Tree.stmts thenBody) body true line).add? s =
        some (.branch condition (Tree.stmts thenBody) (body ++ [s]) true line) := rfl
  have opened : b.call (.beginIf condition line) = _ := outcome_emit_push live _ _
  have liveThen := live.addLine (Tree.indented depth ("if " ++ condition.text ++ " then"))
  have partThen := performs_part takesThen innerThen liveThen ((b.addLine_depth _).trans level)
  have liveElse := liveThen.addLines (Tree.listingOf (depth + 1) thenBody)
  have switched := outcome_beginElse_push liveElse condition (Tree.stmts thenBody) [] line
  have started := liveElse.addLine (Tree.indented depth "else")
  have partElse := performs_part takesElse innerElse started
    (show _ = (depth : Int) by simp [level])
  have closed := outcome_closeBlock_push (started.addLines (Tree.listingOf (depth + 1) elseBody))
    (.branch condition (Tree.stmts thenBody) (Tree.stmts elseBody) true line) rfl
  simp only [addLines_depth, addLine_depth, level, ← Tree.indented_eq] at opened switched closed
  refine .cons opened (partThen.append (.cons switched (partElse.append (.single ?_))))
  refine closed.trans ?_
  simp [addLines, Tree.listing, Tree.stmt]

/-- A tree and the trees behind it. -/
theorem Performs.cons_tree {t : Tree} {ts : List Tree} (live : b.Live) (level : b.depth = depth)
    (first : Performs b t.calls ((b.addLines (t.listing depth)).addStmt t.stmt))
    (rest : Grows ts) : Performs b (Tree.callsOf (t :: ts)) (b.grow depth (t :: ts)) := by
  rw [grow_cons]
  exact first.append (rest _ _ ((live.addLines _).addStmt _) (by simp [level]))

end Block

/-- What the calls of trees leave is their listing and their executable forms. -/
theorem grows (ts : List Tree) : Grows ts := by
  induction ts using Tree.forest_induction with
  | nil => exact fun b _ _ _ => .nil b
  | plain p ts ih =>
      intro b depth live level
      exact .cons_tree live level (.single (Plain.call_eq live level p)) ih
  | branch condition thenBody line ts ihThen ih =>
      intro b depth live level
      have takes (body : List Stmt) (s : Stmt) :
          (OpenBlock.branch condition body [] false line).add? s =
            some (.branch condition (body ++ [s]) [] false line) := rfl
      refine .cons_tree live level (performs_block takes ihThen live level
        (outcome_emit_push live _ _) (outcome_closeBlock_push · _ rfl)) ih
  | branchElse condition thenBody elseBody line ts ihThen ihElse ih =>
      intro b depth live level
      exact .cons_tree live level (performs_branchElse ihThen ihElse line live level) ih
  | forTo counter start limit step body line ts ihBody ih =>
      intro b depth live level
      have takes (body : List Stmt) (s : Stmt) :
          (OpenBlock.forTo counter start limit step body line).add? s =
            some (.forTo counter start limit step (body ++ [s]) line) := rfl
      refine .cons_tree live level (performs_block takes ihBody live level ?_
         (outcome_closeBlock_push · _ rfl)) ih
      cases step <;> exact outcome_emit_push live _ _
  | whileDo condition body line ts ihBody ih =>
      intro b depth live level
      have takes (body : List Stmt) (s : Stmt) :
          (OpenBlock.whileDo condition body line).add? s =
            some (.whileDo condition (body ++ [s]) line) := rfl
      exact .cons_tree live level (performs_block takes ihBody live level
        (outcome_emit_push live _ _) (outcome_closeBlock_push · _ rfl)) ih

end Builder

end PrgScript
