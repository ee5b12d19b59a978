import PrgScript.Number.Reading
import PrgScript.Script.Line

/-!
# Reading expressions

From the weakest to the strongest, operators bind in this order: or, and, not, the
comparisons, plus and minus, times and divided by, signs. The two-sided operators
group to the left. Only parentheses nest, so an expression is read by a tower of
levels over the primary expressions, and a bound on the nesting closes the circle.
-/

namespace PrgScript.Read

/-- Builds the tree of a two-sided operator from its operands and the operator's line. -/
abbrev Combine := Op → Expr → Expr → Nat → Expr

/-- The tree of a two-sided operator; two string literals are joined at once. -/
def folding : Combine
  | .add, .string x _, .string y _, line => .string (x ++ y) line
  | op, x, y, line => .binary op x y line

/-- Goes on with operators of one level after a left operand, for at most the given number of
rounds. -/
def leftAssocFrom (combine : Combine) (op? : Kind → Option Op) (operand : Read Expr) :
    Nat → Expr → Read Expr
  | 0, left => return left
  | rounds + 1, left => do
    let tok ← peek
    match op? tok.kind with
    | none => return left
    | some op =>
      discard next
      let right ← operand
      leftAssocFrom combine op? operand rounds (combine op left right tok.line)

/-- Operands joined by two-sided operators of one level, grouped to the left. -/
def leftAssoc (combine : Combine) (op? : Kind → Option Op) (operand : Read Expr) : Read Expr := do
  let left ← operand
  leftAssocFrom combine op? operand (← bound) left

/-- At most the given number of one-sided operators before an operand. -/
def unaryWithin (op? : Kind → Option Op) (operand : Read Expr) : Nat → Read Expr
  | 0 => operand
  | rounds + 1 => do
    let tok ← peek
    match op? tok.kind with
    | none => operand
    | some op =>
      discard next
      let x ← unaryWithin op? operand rounds
      return .unary op x tok.line

def unaryChain (op? : Kind → Option Op) (operand : Read Expr) : Read Expr := do
  unaryWithin op? operand (← bound)

def orOp? : Kind → Option Op
  | .or => some .or
  | _ => none

def andOp? : Kind → Option Op
  | .and => some .and
  | _ => none

def notOp? : Kind → Option Op
  | .not => some .not
  | _ => none

def comparisonOp? : Kind → Option Op
  | .eq => some .eq
  | .eqEq => some .exactEq
  | .notEq => some .ne
  | .lt => some .lt
  | .ltEq => some .le
  | .gt => some .gt
  | .gtEq => some .ge
  | _ => none

def sumOp? : Kind → Option Op
  | .plus => some .add
  | .minus => some .sub
  | _ => none

def productOp? : Kind → Option Op
  | .star => some .mul
  | .slash => some .div
  | _ => none

def signOp? : Kind → Option Op
  | .minus => some .neg
  | .plus => some .pos
  | _ => none

/-- The levels of operators over the primary expressions. -/
def levels (combine : Combine) (primary : Read Expr) : Read Expr :=
  let signed := unaryChain signOp? primary
  let product := leftAssoc combine productOp? signed
  let sum := leftAssoc combine sumOp? product
  let comparison := leftAssoc combine comparisonOp? sum
  let negation := unaryChain notOp? comparison
  let conjunction := leftAssoc combine andOp? negation
  leftAssoc combine orOp? conjunction

/-- The rest of an expression in parentheses, given its opening one. -/
def parenthesized (inner : Read Expr) (opening : Token) : Read Expr := do
  openParen
  let e ← inner
  let tok ← next
  if tok.kind = .rParen then
    closeParen
    return e
  else throw (.at (.unclosedParen opening.line opening.col tok.describe) opening)

/-- A literal, a variable, or an expression in parentheses. -/
def primary (inner : Read Expr) : Read Expr := do
  let tok ← next
  match tok.kind with
  | .number =>
    match Number.read tok.text with
    | .ok value => return .number value tok.line
    | .error _ => throw (.at (.malformedNumber tok.text) tok)
  | .string => return .string tok.value tok.line
  | .logical => return .logical (tok.value == "T") tok.line
  | .ident =>
    if ← isAt .lParen then throw (.at (.functionCall tok.text) tok)
    else return .ident tok.text tok.line
  | .lParen => parenthesized inner tok
  | kind =>
    if kind.isKeyword then throw (.at (.keywordInExpression tok.text) tok)
    else unexpected .expression tok

/-- An expression whose parentheses nest less than the given number of levels deep. -/
def nested (combine : Combine) : Nat → Read Expr
  | 0 => do unexpected .expression (← peek)
  | depth + 1 => levels combine (primary (nested combine depth))

/-- An expression. Every parenthesis takes a token, so the tokens left bound the nesting. -/
def expressionWith (combine : Combine) : Read Expr := do
  nested combine (← bound)

/-- An expression, with neighbouring string literals joined. -/
def expression : Read Expr := expressionWith folding

end PrgScript.Read
