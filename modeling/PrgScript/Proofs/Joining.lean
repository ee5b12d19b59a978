import PrgScript.Machine.Eval
import PrgScript.Proofs.Parts
import PrgScript.Proofs.Step
import PrgScript.Script.Expression

/-!
# String literals that are joined early

The reader joins two string literals around a plus sign at once, while it climbs the
levels of operators. `Expr.joined` does the same to a finished tree, from its leaves
upwards. Joining and reading commute: every reader of a level that joins is the reader
that never joins, followed by `Expr.joined`. This is an equation of readers, so it holds
for the tokens they take, the parentheses they count and the faults they end with.

What is joined has the value that the sum would have had. No other value and no fault can
depend on it, because an expression is evaluated from the values of its operands.
-/

namespace PrgScript

open Step

namespace Expr

/-- An expression with the literals joined that a plus sign stands between, from the leaves
upwards. -/
def joined : Expr → Expr
  | .unary op operand line => .unary op operand.joined line
  | .binary op left right line => Read.folding op left.joined right.joined line
  | e => e

def isSumOfStrings : Expr → Bool
  | .binary .add (.string ..) (.string ..) _ => true
  | _ => false

/-- The tree of an operator holds its operands, unless they are two literals that are joined. -/
theorem folding_eq (op : Op) (x y : Expr) (line : Nat) :
    (∃ text, Read.folding op x y line = .string text line) ∨
      Read.folding op x y line = .binary op x y line ∧
        (Expr.binary op x y line).isSumOfStrings = false := by
  cases op with
  | add =>
      cases x with
      | string =>
          cases y with
          | string => exact .inl ⟨_, rfl⟩
          | _ => exact .inr ⟨rfl, rfl⟩
      | _ => exact .inr ⟨rfl, rfl⟩
  | _ => exact .inr ⟨rfl, rfl⟩

/-- Nothing is left to join. -/
theorem isSumOfStrings_of_mem_joined (e : Expr) :
    ∀ x ∈ e.joined.nodes, x.isSumOfStrings = false := by
  induction e with
  | unary op operand line ih =>
      rw [joined, nodes, List.forall_mem_cons]
      exact ⟨rfl, ih⟩
  | binary op left right line ihLeft ihRight =>
      rw [joined]
      obtain ⟨text, same⟩ | ⟨same, apart⟩ := folding_eq op left.joined right.joined line
      · rw [same]
        exact List.forall_mem_singleton.2 rfl
      · rw [same, nodes, List.forall_mem_cons, List.forall_mem_append]
        exact ⟨apart, ihLeft, ihRight⟩
  | _ => exact List.forall_mem_singleton.2 rfl

end Expr

/-! ### Values -/

theorem eval_folding (vars : Variables) (op : Op) (x y : Expr) (line : Nat) :
    eval vars (Read.folding op x y line) = eval vars (.binary op x y line) := by
  cases op with
  | add =>
      cases x with
      | string => cases y <;> rfl
      | _ => rfl
  | _ => rfl

/-- The value of an operation depends on the values of its operands alone. -/
theorem eval_binary_congr {vars : Variables} {x x' y y' : Expr} (lefts : eval vars x = eval vars x')
    (rights : eval vars y = eval vars y') (op : Op) (line : Nat) :
    eval vars (.binary op x y line) = eval vars (.binary op x' y' line) := by
  cases op <;> simp only [eval, lefts, rights]

theorem eval_joined (vars : Variables) (e : Expr) : eval vars e.joined = eval vars e := by
  induction e with
  | unary op operand line ih => simp only [Expr.joined, eval, ih]
  | binary op left right line ihLeft ihRight =>
      rw [Expr.joined, eval_folding]
      exact eval_binary_congr ihLeft ihRight op line
  | _ => rfl

/-! ### Readers -/

namespace Read

variable {op? : Kind → Option Op}

theorem leftAssocFrom_joined (operand : Read Expr) (rounds : Nat) (left : Expr) :
    leftAssocFrom folding op? (Expr.joined <$> operand) rounds left.joined =
      Expr.joined <$> leftAssocFrom .binary op? operand rounds left := by
  induction rounds generalizing left with
  | zero => rfl
  | succ rounds ih =>
      simp only [leftAssocFrom, map_bind]
      congr 1
      funext tok
      cases op? tok.kind with
      | none => rfl
      | some op =>
          simp only [map_bind, bind_map_left]
          congr 1
          funext _
          congr 1
          funext right
          exact ih (.binary op left right tok.line)

theorem leftAssoc_joined (operand : Read Expr) :
    leftAssoc folding op? (Expr.joined <$> operand) =
      Expr.joined <$> leftAssoc .binary op? operand := by
  simp only [leftAssoc, map_bind, bind_map_left, leftAssocFrom_joined]

theorem unaryChain_joined (operand : Read Expr) :
    unaryChain op? (Expr.joined <$> operand) = Expr.joined <$> unaryChain op? operand := by
  have within (rounds : Nat) : unaryWithin op? (Expr.joined <$> operand) rounds =
      Expr.joined <$> unaryWithin op? operand rounds := by
    induction rounds with
    | zero => rfl
    | succ rounds ih =>
        simp only [unaryWithin, map_bind]
        congr 1
        funext tok
        cases op? tok.kind with
        | none => rfl
        | some op => simp only [map_bind, ih, bind_map_left, map_pure, Expr.joined]
  simp only [unaryChain, map_bind, within]

theorem levels_joined (primary : Read Expr) :
    levels folding (Expr.joined <$> primary) = Expr.joined <$> levels .binary primary := by
  simp only [levels, leftAssoc_joined, unaryChain_joined]

theorem map_unexpected (f : Expr → Expr) (wanted : Wanted) (tok : Token) :
    f <$> (unexpected wanted tok : Read Expr) = unexpected wanted tok := by
  simp only [unexpected, map_bind]
  congr 1
  funext r
  split <;> rfl

theorem primary_joined (inner : Read Expr) :
    primary (Expr.joined <$> inner) = Expr.joined <$> primary inner := by
  simp only [primary, map_bind]
  congr 1
  funext tok
  cases tok.kind with
  | number =>
      dsimp only
      cases Number.read tok.text <;> rfl
  | ident =>
      simp only [map_bind]
      congr 1
      funext called
      split <;> rfl
  | lParen =>
      simp only [parenthesized, map_bind, bind_map_left]
      congr 1
      funext _
      congr 1
      funext e
      congr 1
      funext closing
      split
      · simp only [map_bind, map_pure]
      · rfl
  | string | logical => rfl
  | _ =>
      dsimp only
      split
      · rfl
      · exact (map_unexpected _ _ _).symm

/-- Reading an expression joins its literals and does nothing else. -/
theorem expression_eq_joined : expression = Expr.joined <$> expressionWith .binary := by
  have depths (n : Nat) : nested folding n = Expr.joined <$> nested .binary n := by
    induction n with
    | zero =>
        simp only [nested, map_bind, map_unexpected]
    | succ n ih => rw [nested, nested, ih, primary_joined, levels_joined]
  simp only [expression, expressionWith, map_bind, depths]

end Read

/-- Joining string literals while reading keeps the meaning of an expression. On every sequence of
tokens the reader that joins them ends as the one that builds a tree for each operator: with the
same fault, or after the same tokens with a tree that has the same value or the same fault whatever
the variables are. No sum of two string literals is left in it. -/
theorem expression_joins (r : Reading) :
    match outcome (Read.expressionWith .binary) r with
    | (.error fault, r') => outcome Read.expression r = (.error fault, r')
    | (.ok e, r') => ∃ e', outcome Read.expression r = (.ok e', r') ∧
        (∀ vars, eval vars e' = eval vars e) ∧ ∀ x ∈ e'.nodes, x.isSumOfStrings = false := by
  rw [Read.expression_eq_joined, outcome_map]
  cases outcome (Read.expressionWith .binary) r with
  | mk result r' =>
      cases result with
      | error fault => rfl
      | ok e =>
          refine ⟨e.joined, rfl, fun vars => eval_joined vars e, ?_⟩
          exact e.isSumOfStrings_of_mem_joined

end PrgScript
