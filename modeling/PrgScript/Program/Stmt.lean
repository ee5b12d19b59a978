import PrgScript.Program.Color
import PrgScript.Program.Expr

/-!
# Statements

Statement trees. Every statement carries the line of the script it starts on. A
statement read back from disk may have no content or a kind that no statement has.
-/

namespace PrgScript

/-- A statement; `line` is the line of the script it starts on. -/
inductive Stmt where
  /-- Declares variables, which start as false. -/
  | declare (names : List Text) (line : Nat)
  | assign (name : Text) (value : Expr) (line : Nat)
  | branch (condition : Expr) (thenBody elseBody : List Stmt) (line : Nat)
  /-- Counts a variable from a start to a limit; the step is one unless given. -/
  | forTo (counter : Text) (start limit : Expr) (step : Option Expr) (body : List Stmt)
      (line : Nat)
  | whileDo (condition : Expr) (body : List Stmt) (line : Nat)
  | setColor (colors : ColorPair) (line : Nat)
  /-- Prints a value at a place on the screen. -/
  | say (row col value : Expr) (line : Nat)
  /-- Prints values with a blank between them and, unless `newline` is false, a line feed. -/
  | print (values : List Expr) (newline : Bool) (line : Nat)
  | finish (line : Nat)
  | malformed (kind : Nat) (line : Nat)
deriving Inhabited

namespace Stmt

mutual

def same : Stmt → Stmt → Bool
  | .declare names line, .declare names' line' => names = names' ∧ line = line'
  | .assign name value line, .assign name' value' line' =>
    name = name' ∧ value = value' ∧ line = line'
  | .branch condition thenBody elseBody line, .branch condition' thenBody' elseBody' line' =>
    condition = condition' ∧ sameBlock thenBody thenBody' ∧ sameBlock elseBody elseBody' ∧
      line = line'
  | .forTo counter start limit step body line, .forTo counter' start' limit' step' body' line' =>
    counter = counter' ∧ start = start' ∧ limit = limit' ∧ step = step' ∧ sameBlock body body' ∧
      line = line'
  | .whileDo condition body line, .whileDo condition' body' line' =>
    condition = condition' ∧ sameBlock body body' ∧ line = line'
  | .setColor colors line, .setColor colors' line' => colors = colors' ∧ line = line'
  | .say row col value line, .say row' col' value' line' =>
    row = row' ∧ col = col' ∧ value = value' ∧ line = line'
  | .print values newline line, .print values' newline' line' =>
    values = values' ∧ newline = newline' ∧ line = line'
  | .finish line, .finish line' => line = line'
  | .malformed kind line, .malformed kind' line' => kind = kind' ∧ line = line'
  | _, _ => false

def sameBlock : List Stmt → List Stmt → Bool
  | [], [] => true
  | s :: ss, t :: ts => same s t ∧ sameBlock ss ts
  | _, _ => false

end

theorem same_iff (s t : Stmt) : same s t = true ↔ s = t := by
  induction s using @Stmt.rec _ fun ss => ∀ ts, sameBlock ss ts = true ↔ ss = ts
    generalizing t with
  | nil ts => cases ts <;> simp [sameBlock]
  | cons s ss first rest ts => cases ts <;> simp [sameBlock, first, rest]
  | _ => cases t <;> simp [same, *]

instance : DecidableEq Stmt := fun s t => decidable_of_iff _ (same_iff s t)

def line : Stmt → Nat
  | .declare _ line | .assign _ _ line | .branch _ _ _ line | .forTo _ _ _ _ _ line
  | .whileDo _ _ line | .setColor _ line | .say _ _ _ line | .print _ _ line | .finish line
  | .malformed _ line => line

/-- The name of the statement kind with a code. -/
def kindName : Nat → String
  | 1 => "local"
  | 2 => "assign"
  | 3 => "if"
  | 4 => "for"
  | 5 => "while"
  | 6 => "color"
  | 7 => "say"
  | 8 => "print"
  | 9 => "return"
  | _ => "invalid"

def kind : Stmt → Nat
  | .declare .. => 1
  | .assign .. => 2
  | .branch .. => 3
  | .forTo .. => 4
  | .whileDo .. => 5
  | .setColor .. => 6
  | .say .. => 7
  | .print .. => 8
  | .finish .. => 9
  | .malformed kind _ => kind

mutual

/-- The first fault of a statement: content that its kind needs and that is not there, or an
unknown kind, anywhere in it. -/
def fault? : Stmt → Option Malformed
  | .declare .. | .setColor .. | .finish .. => none
  | .assign _ value _ => value.fault?
  | .branch condition thenBody elseBody _ =>
    condition.fault?.or ((blockFault? thenBody).or (blockFault? elseBody))
  | .forTo _ start limit step body _ =>
    ((start :: limit :: step.toList).findSome? Expr.fault?).or (blockFault? body)
  | .whileDo condition body _ => condition.fault?.or (blockFault? body)
  | .say row col value _ => [row, col, value].findSome? Expr.fault?
  | .print values _ _ => values.findSome? Expr.fault?
  | .malformed kind line =>
    if 1 ≤ kind ∧ kind ≤ 8 then some (.noPayload line (kindName kind))
    else some (.unknownStatement line kind)

def blockFault? : List Stmt → Option Malformed
  | [] => none
  | s :: ss => s.fault?.or (blockFault? ss)

end

end Stmt

end PrgScript
