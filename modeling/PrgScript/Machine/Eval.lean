import PrgScript.Machine.Fault
import PrgScript.Text.Case

/-!
# Evaluating expressions

Expressions have no effects: their value, or what is wrong with them, depends on the
variables alone. The names of variables are compared without regard to letter case.
-/

namespace PrgScript

abbrev Table (α : Type) := List (Text × α)

/-- The entries after one has been put under a key, in place of the one that was there. -/
def Table.put {α : Type} (k : Text) (a : α) : Table α → Table α
  | [] => [(k, a)]
  | (k', a') :: rest => if k' = k then (k, a) :: rest else (k', a') :: put k a rest

theorem Table.lookup_put {α : Type} (table : Table α) (k : Text) (a : α) (k' : Text) :
    (table.put k a).lookup k' = if k' = k then some a else table.lookup k' := by
  induction table with
  | nil =>
      rw [put, List.lookup_cons]
      by_cases same : k' = k
      · simp [same]
      · simp [same, beq_false_of_ne same]
  | cons entry rest ih =>
      obtain ⟨first, a'⟩ := entry
      rw [put]
      split
      next old =>
        rw [List.lookup_cons, List.lookup_cons, old]
        by_cases same : k' = k
        · simp [same]
        · simp [same, beq_false_of_ne same]
      next kept =>
        rw [List.lookup_cons, List.lookup_cons, ih]
        by_cases other : k' = first
        · simp [other, kept]
        · simp [beq_false_of_ne other]

/-- The variables of a running script by their names in upper case. -/
abbrev Variables := Table Value

namespace Variables

/-- The name under which a variable is kept. -/
def key (name : Text) : Text := Text.upper name

def get? (vars : Variables) (name : Text) : Option Value := List.lookup (key name) vars

def set (vars : Variables) (name : Text) (v : Value) : Variables := vars.put (key name) v

end Variables

namespace Value

def truth (condition : ConditionOf) : Value → Except ExecCause Bool
  | .logical b => .ok b
  | v => .error (.notLogical condition v.kind)

def toNumber (place : NumberFor) : Value → Except ExecCause Float
  | .number x => .ok x
  | v => .error (.notNumeric place v.kind)

def unary (x : Value) (op : Op) : Except ExecCause Value :=
  match op with
  | .not => return .logical (!(← x.truth (.operator .not)))
  | .neg => return .number (-(← x.toNumber .negated))
  | .pos => return .number (← x.toNumber .plus)
  | op => .error (.unknownUnary op)

def arithmetic (op : Op) (f : Float → Float → Except ExecCause Float) (x y : Value) :
    Except ExecCause Value :=
  match x, y with
  | .number a, .number b => return .number (← f a b)
  | x, y => .error (.mismatch op x.kind y.kind)

/-- The result of comparing two values for equality; they must be of one kind. -/
def equality (op : Op) (test : Value → Value → Bool) (x y : Value) : Except ExecCause Value :=
  if x.kind = y.kind then .ok (.logical (test x y)) else .error (.mismatch op x.kind y.kind)

/-- The order of two numbers or two strings. Numbers that cannot be compared count as equal. -/
def compare (op : Op) (x y : Value) : Except ExecCause Ordering :=
  match x, y with
  | .number a, .number b => .ok (if a < b then .lt else if b < a then .gt else .eq)
  | .string a, .string b => .ok (if Text.less a b then .lt else if Text.less b a then .gt else .eq)
  | x, y => .error (.mismatch op x.kind y.kind)

/-- The result of a two-sided operator, except for those that may skip their right operand. -/
def binary (x : Value) (op : Op) (y : Value) : Except ExecCause Value :=
  match op with
  | .add =>
    match x, y with
    | .string a, .string b => .ok (.string (a ++ b))
    | x, y => arithmetic op (fun a b => .ok (a + b)) x y
  | .sub => arithmetic op (fun a b => .ok (a - b)) x y
  | .mul => arithmetic op (fun a b => .ok (a * b)) x y
  | .div => arithmetic op (fun a b => if b == 0 then .error .divisionByZero else .ok (a / b)) x y
  | .eq => equality op looselyEqual x y
  | .exactEq => equality op equal x y
  | .ne => equality op (fun a b => !a.looselyEqual b) x y
  | .lt => return .logical ((← compare op x y) == .lt)
  | .le => return .logical ((← compare op x y) != .gt)
  | .gt => return .logical ((← compare op x y) == .gt)
  | .ge => return .logical ((← compare op x y) != .lt)
  | op => .error (.unknownBinary op)

end Value

/-- The value of an expression. The right operand of and and or is evaluated only if the left one
does not settle the result. -/
def eval (vars : Variables) : Expr → Except ExecCause Value
  | .number value _ => .ok (.number value)
  | .string value _ => .ok (.string value)
  | .logical value _ => .ok (.logical value)
  | .ident name _ =>
    match vars.get? name with
    | some v => .ok v
    | none => .error (.undefinedVariable name)
  | .unary op x _ => do (← eval vars x).unary op
  | .binary op x y _ =>
    match op with
    | .and => do
      if ← (← eval vars x).truth (.operator .and) then
        return .logical (← (← eval vars y).truth (.operator .and))
      else return .logical false
    | .or => do
      if ← (← eval vars x).truth (.operator .or) then return .logical true
      else return .logical (← (← eval vars y).truth (.operator .or))
    | op => do
      let a ← eval vars x
      let b ← eval vars y
      a.binary op b
  | .missing => .error .missingOperand
  | .malformed kind _ => .error (.unknownExpression kind)

end PrgScript
