/-!
# Operators

The operators of expressions with their listing text and precedence. Programs read
back from disk may carry codes that no operator has.
-/

namespace PrgScript

inductive Op where
  | add | sub | mul | div
  | eq | exactEq | ne | lt | le | gt | ge
  | and | or | not | neg | pos
  | unknown (code : UInt8)
deriving DecidableEq, Repr

namespace Op

/-- The operators in the order of their codes, which start at one. -/
def all : List Op := [
  .add, .sub, .mul, .div, .eq, .exactEq, .ne, .lt, .le, .gt, .ge, .and, .or, .not, .neg, .pos]

def ofCode (code : UInt8) : Op :=
  match code.toNat with
  | 0 => .unknown code
  | n + 1 => (all[n]?).getD (.unknown code)

def code : Op → UInt8
  | .add => 1
  | .sub => 2
  | .mul => 3
  | .div => 4
  | .eq => 5
  | .exactEq => 6
  | .ne => 7
  | .lt => 8
  | .le => 9
  | .gt => 10
  | .ge => 11
  | .and => 12
  | .or => 13
  | .not => 14
  | .neg => 15
  | .pos => 16
  | .unknown code => code

def text : Op → String
  | .add => "+"
  | .sub => "-"
  | .mul => "*"
  | .div => "/"
  | .eq => "="
  | .exactEq => "=="
  | .ne => "<>"
  | .lt => "<"
  | .le => "<="
  | .gt => ">"
  | .ge => ">="
  | .and => "and"
  | .or => "or"
  | .not => "not"
  | .neg => "-"
  | .pos => "+"
  | .unknown _ => "?"

/-- How tightly an operator binds; a larger number binds tighter. -/
def precedence : Op → Nat
  | .or => 1
  | .and => 2
  | .not => 3
  | .eq | .exactEq | .ne | .lt | .le | .gt | .ge => 4
  | .add | .sub => 5
  | .mul | .div => 6
  | .neg | .pos => 7
  | .unknown _ => 0

end Op

end PrgScript
