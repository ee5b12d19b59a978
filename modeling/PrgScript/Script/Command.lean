import PrgScript.Program.Color
import PrgScript.Script.Expression

/-!
# Reading statements

A command is what one line of a script asks for, without regard to the blocks it
stands in.
-/

namespace PrgScript

/-- The colours that a statement chooses: the default ones, or a foreground and possibly a
background. -/
inductive ColorChoice where
  | reset
  | choose (foreground : Color) (background : Option Color)
deriving DecidableEq, Repr

/-- What one line of a script asks for. -/
inductive Command where
  | parameters (names : List Token)
  | declare (names : List Token)
  | assign (name : Token) (value : Expr)
  | beginIf (condition : Expr)
  | elseWord
  | endIf
  | beginFor (counter : Token) (start limit : Expr) (step : Option Expr)
  | endFor (counter : Option Token)
  | beginWhile (condition : Expr)
  | endWhile
  | finish
  | setColor (choice : ColorChoice)
  | say (row col value : Expr)
  | print (values : List Expr) (newline : Bool)
  | beginClass (name : Token) (base : Widget) (oneLine : Bool)
  | property (name : Token) (value : Expr)
  | endClass

namespace Read

def identifier (role : NameRole) : Read Token := do
  let tok ← next
  if tok.kind.isKeyword then throw (.at (.keywordAsName tok.text role) tok)
  else if tok.kind = .ident then return tok
  else unexpected (.nameOf role) tok

/-- At most the given number of identifiers, separated by commas. -/
def identifiersWithin (role : NameRole) : Nat → Read (List Token)
  | 0 => return []
  | rounds + 1 => do
    let tok ← identifier role
    if ← eat .comma then return tok :: (← identifiersWithin role rounds) else return [tok]

/-- One or more identifiers, separated by commas. -/
def identifiers (role : NameRole) : Read (List Token) := do
  identifiersWithin role (← bound)

def assignSign (wanted : Wanted) : Read Unit := do
  let tok ← next
  if tok.kind = .eq ∨ tok.kind = .colonAssign then return else unexpected wanted tok

def assignment : Read Command := do
  let name ← next
  if ← isAt .lParen then throw (.at (.procedureCall name.text) name)
  assignSign (.assignAfter name.text)
  return .assign name (← expression)

def forHead : Read Command := do
  let counter ← identifier .loopVariable
  assignSign (.assignAfterFor counter.text)
  let start ← expression
  discard (expect (.keyword .kwTo) .toWord)
  let limit ← expression
  let step ← if ← eat (.keyword .kwStep) then some <$> expression else pure none
  return .beginFor counter start limit step

/-- The end of a counting loop, which may name the variable. -/
def forEnd : Read Command := do
  let tok ← peek
  if tok.kind = .ident then
    discard next
    return .endFor (some tok)
  else return .endFor none

def whileHead : Read Command := do
  discard (expect (.keyword .kwWhile) .whileAfterDo)
  return .beginWhile (← expression)

/-- A colour name, made bright by a plus sign. -/
def color : Read Color := do
  let tok ← next
  if tok.kind ≠ .ident then unexpected .colorName tok
  else
    match Color.ofName? tok.text with
    | none => throw (.at (.unknownColor tok.text) tok)
    | some c => if ← eat .plus then return { c with bright := true } else return c

def colorChoice : Read Command := do
  discard (expect (.keyword .kwColor) .colorAfterSet)
  discard (expect (.keyword .kwTo) .toAfterSetColor)
  if (← peek).kind.isEnd then return .setColor .reset
  let foreground ← color
  let background ← if ← eat .slash then some <$> color else pure none
  return .setColor (.choose foreground background)

def sayAt : Read Command := do
  let row ← expression
  discard (expect .comma .comma)
  let col ← expression
  discard (expect (.keyword .kwSay) .sayWord)
  return .say row col (← expression)

/-- At most the given number of expressions, separated by commas. -/
def expressionsWithin : Nat → Read (List Expr)
  | 0 => return []
  | rounds + 1 => do
    let e ← expression
    if ← eat .comma then return e :: (← expressionsWithin rounds) else return [e]

/-- Nothing, or one or more expressions, separated by commas. -/
def printed (newline : Bool) : Read Command := do
  if (← peek).kind.isEnd then return .print [] newline
  return .print (← expressionsWithin (← bound)) newline

/-- The head of a class. A pair of parentheses may follow the kind of object, and a class without
properties may end on the same line. -/
def classHead : Read Command := do
  let name ← identifier .classRole
  discard (expect (.keyword .kwOf) (.ofAfterClass name.text))
  let baseTok ← next
  match Widget.ofKeyword? baseTok.kind with
  | none => unexpected .widget baseTok
  | some base =>
    if ← eat .lParen then
      openParen
      let closing ← next
      if closing.kind ≠ .rParen then
        throw (.at (.unclosedClassParen name.text baseTok.text) closing)
      closeParen
    return .beginClass name base (← eat (.keyword .kwEndclass))

/-- A property of a class; its name may be a reserved word. -/
def propertyLine : Read Command := do
  discard (expect .dot .dotAfterThis)
  let name ← next
  if name.kind ≠ .ident ∧ !name.kind.isKeyword then unexpected .propertyName name
  assignSign (.assignAfterThis name.text)
  return .property name (← expression)

/-- Fails because a reserved word cannot start a statement. -/
def cannotStart (tok : Token) : Read Command := do
  discard next
  if (← isAt .eq) || (← isAt .colonAssign) then throw (.at (.keywordAssigned tok.text) tok)
  else throw (.at (.cannotStart tok.describe) tok)

/-- Takes the first word of a statement and reads what follows it. -/
def after (rest : Read Command) : Read Command := do
  discard next
  rest

/-- The command on a line, up to but without the end of the line. -/
def command : Read Command := do
  let tok ← peek
  match tok.kind with
  | .keyword .kwParameter => after (.parameters <$> identifiers .parameter)
  | .keyword .kwLocal => after (.declare <$> identifiers .localVariable)
  | .ident => assignment
  | .keyword .kwIf => after (.beginIf <$> expression)
  | .keyword .kwElse => after (return .elseWord)
  | .keyword .kwEndif => after (return .endIf)
  | .keyword .kwFor => after forHead
  | .keyword .kwNext => after forEnd
  | .keyword .kwDo => after whileHead
  | .keyword .kwEnddo => after (return .endWhile)
  | .keyword .kwReturn => after (return .finish)
  | .keyword .kwSet => after colorChoice
  | .keyword .kwClass => after classHead
  | .keyword .kwThis => after propertyLine
  | .keyword .kwEndclass => after (return .endClass)
  | .atSign => after sayAt
  | .question => after (printed true)
  | .questionQuestion => after (printed false)
  | kind => if kind.isKeyword then cannotStart tok else unexpected .statement tok

end Read

end PrgScript
