import PrgScript.Text.Case
import PrgScript.Text.Quoted

/-!
# Dialects

Three script dialects share the scanner. Only the dBase dialect has statements; there
a line feed ends a statement, strings know escapes, and logical words stand between
dots.
-/

namespace PrgScript

inductive Dialect where
  | dbase
  | pascal
  | lisp
deriving DecidableEq, Repr

namespace Dialect

def name : Dialect → String
  | .dbase => "dbase"
  | .pascal => "pascal"
  | .lisp => "lisp"

/-- The name of a dialect that may be missing. -/
def nameOf : Option Dialect → String
  | some d => d.name
  | none => "unknown"

/-- The dialect with a code, counted from one. -/
def ofCode? : Nat → Option Dialect
  | 1 => some .dbase
  | 2 => some .pascal
  | 3 => some .lisp
  | _ => none

/-- The blanks that are trimmed off a dialect's name. -/
def isBlank (c : Char) : Bool :=
  c == ' ' || (9 ≤ c.toNat && c.toNat ≤ 13) || c.toNat == 0x85 || c.toNat == 0xA0 ||
    c.toNat == 0x1680 || (0x2000 ≤ c.toNat && c.toNat ≤ 0x200A) || c.toNat == 0x2028 ||
    c.toNat == 0x2029 || c.toNat == 0x202F || c.toNat == 0x205F || c.toNat == 0x3000

/-- The dialect with a name in any letter case, blanks around it ignored. -/
def ofName? (name : Text) : Option Dialect :=
  let word := ((Text.chars name).dropWhile isBlank).reverse.dropWhile isBlank |>.reverse
  let key := Text.lower (Text.ofChars word)
  if key = "dbase" || key = "primary" || key = "prg" then some .dbase
  else if key = "pascal" || key = "structured" then some .pascal
  else if key = "lisp" || key = "list" then some .lisp
  else none

def unknownName (name : Text) : Text :=
  "unknown dialect " ++ Text.quote name ++ " (expected dbase|pascal|lisp)"

/-- Whether a line feed is a token. -/
def newlineSignificant (d : Dialect) : Bool := d == .dbase

/-- The characters that open a string literal. -/
def quotes : Dialect → List Char
  | .dbase => ['"', '\'']
  | .pascal => ['\'']
  | .lisp => ['"']

def isQuote (d : Dialect) (c : Char) : Bool := d.quotes.contains c

def escapes (d : Dialect) : Bool := d == .dbase

/-- Whether reserved words are recognised in any letter case. -/
def foldsCase : Dialect → Bool
  | .dbase | .pascal => true
  | .lisp => false

/-- Whether logical words stand between dots. -/
def dotWords (d : Dialect) : Bool := d == .dbase

end Dialect

end PrgScript
