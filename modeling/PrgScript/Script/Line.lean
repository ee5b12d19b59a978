import PrgScript.Scanner.Basic

/-!
# Lines of tokens

A statement ends with its line, so a script is read line by line. A line is the tokens
up to a line feed or the end of the script, or up to the place where scanning failed.

The functions that read a statement work on the rest of a line and count the open
parentheses. A failure keeps the count it has reached.
-/

namespace PrgScript

/-- How a line ends: with the token of a line feed or of the end of the script, or with an
error. -/
inductive LineEnd where
  | token (token : Token)
  | error (error : ScriptError)
deriving DecidableEq, Repr

structure Line where
  tokens : List Token
  ending : LineEnd
deriving DecidableEq, Repr

namespace Line

/-- The lines of a token sequence that ends in a given way; there is at least one. -/
def ofTokens (ending : LineEnd) : List Token → List Line
  | [] => [⟨[], ending⟩]
  | tok :: toks =>
    if tok.kind = .newline then ⟨[], .token tok⟩ :: ofTokens ending toks
    else
      match ofTokens ending toks with
      | [] => [⟨[tok], ending⟩]
      | line :: lines => { line with tokens := tok :: line.tokens } :: lines

def ofStream (s : TokenStream) : List Line :=
  ofTokens (match s.ending with
    | .eof token => .token token
    | .error e _ => .error e) s.tokens

end Line

/-- Why a statement cannot be read: something is wrong at a token, or scanning failed. -/
inductive Fault where
  | at (cause : Cause) (token : Token)
  | scan (error : ScriptError)
deriving DecidableEq, Repr

def Fault.error (path : Text) : Fault → ScriptError
  | .at cause token =>
    { cause, file := path, line := token.line, col := token.col, span := token.span }
  | .scan error => error

/-- The rest of a line and the number of open parentheses. -/
structure Reading where
  line : Line
  parens : Int
deriving DecidableEq, Repr

abbrev Read := ExceptT Fault (StateM Reading)

namespace Read

/-- The next token, which stays. At the end of the line this is the token that ends it. -/
def peek : Read Token := do
  let line := (← get).line
  match line.tokens with
  | tok :: _ => return tok
  | [] =>
    match line.ending with
    | .token tok => return tok
    | .error e => throw (.scan e)

/-- Takes the next token. The token that ends the line stays. -/
def next : Read Token := do
  let tok ← peek
  modify fun r => { r with line.tokens := r.line.tokens.tail }
  return tok

/-- Whether the next token is of a kind; not so if scanning fails there. -/
def isAt (kind : Kind) : Read Bool := do
  return (← get).line.tokens.head?.any (·.kind == kind)

def eat (kind : Kind) : Read Bool := do
  if (← peek).kind = kind then
    discard next
    return true
  else return false

/-- Fails because a token is not what is wanted. A closing parenthesis without an opening one is
an error of its own. -/
def unexpected {α : Type} (wanted : Wanted) (tok : Token) : Read α := do
  if tok.kind = .rParen ∧ (← get).parens = 0 then throw (.at .strayParen tok)
  else throw (.at (.unexpected wanted tok.describe) tok)

def expect (kind : Kind) (wanted : Wanted) : Read Token := do
  let tok ← next
  if tok.kind = kind then return tok else unexpected wanted tok

def expectEnd : Read Unit := do
  let tok ← peek
  if tok.kind.isEnd then return else unexpected .endOfLine tok

end Read

def openedParens (parens : Int) : Int := Number.wrap (parens + 1)

/-- The count of open parentheses after a closing one; a count of zero stays. -/
def closedParens (parens : Int) : Int := if parens = 0 then 0 else Number.wrap (parens - 1)

namespace Read

def openParen : Read Unit := modify fun r => { r with parens := openedParens r.parens }

def closeParen : Read Unit := modify fun r => { r with parens := closedParens r.parens }

/-- The number of tokens left on the line, one more than needed to bound a repetition that takes
a token each round. -/
def bound : Read Nat := return (← get).line.tokens.length + 1

end Read

end PrgScript
