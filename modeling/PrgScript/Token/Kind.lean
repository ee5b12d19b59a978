import PrgScript.Text.Basic

/-!
# Kinds of tokens

Every reserved word of the dBase dialect is a kind of its own; the reserved words of
the other dialects share one kind.
-/

namespace PrgScript

/-- The reserved words of the dBase dialect. -/
inductive Keyword where
  | kwParameter | kwLocal | kwIf | kwElse | kwEndif | kwFor | kwTo | kwStep | kwNext
  | kwDo | kwWhile | kwEnddo | kwReturn | kwSet | kwColor | kwSay | kwClass | kwOf
  | kwEndclass | kwThis | kwForm | kwContainer | kwGrid | kwPushbutton | kwMemo | kwText
  | kwEditfield
deriving DecidableEq, Repr

namespace Keyword

/-- The reserved words in the order of their codes. -/
def all : List Keyword := [
  .kwParameter, .kwLocal, .kwIf, .kwElse, .kwEndif, .kwFor, .kwTo, .kwStep, .kwNext,
  .kwDo, .kwWhile, .kwEnddo, .kwReturn, .kwSet, .kwColor, .kwSay, .kwClass, .kwOf,
  .kwEndclass, .kwThis, .kwForm, .kwContainer, .kwGrid, .kwPushbutton, .kwMemo, .kwText,
  .kwEditfield]

def name : Keyword → String
  | .kwParameter => "KwParameter"
  | .kwLocal => "KwLocal"
  | .kwIf => "KwIf"
  | .kwElse => "KwElse"
  | .kwEndif => "KwEndif"
  | .kwFor => "KwFor"
  | .kwTo => "KwTo"
  | .kwStep => "KwStep"
  | .kwNext => "KwNext"
  | .kwDo => "KwDo"
  | .kwWhile => "KwWhile"
  | .kwEnddo => "KwEnddo"
  | .kwReturn => "KwReturn"
  | .kwSet => "KwSet"
  | .kwColor => "KwColor"
  | .kwSay => "KwSay"
  | .kwClass => "KwClass"
  | .kwOf => "KwOf"
  | .kwEndclass => "KwEndclass"
  | .kwThis => "KwThis"
  | .kwForm => "KwForm"
  | .kwContainer => "KwContainer"
  | .kwGrid => "KwGrid"
  | .kwPushbutton => "KwPushbutton"
  | .kwMemo => "KwMemo"
  | .kwText => "KwText"
  | .kwEditfield => "KwEditfield"

end Keyword

inductive Kind where
  | invalid | eof | newline
  | ident | number | string | logical | reserved | char
  | plus | minus | star | slash | eq | eqEq | notEq | lt | ltEq | gt | gtEq
  | lParen | rParen | lBracket | rBracket | comma | dot | colon | colonAssign | semicolon
  | atSign | question | questionQuestion
  | and | or | not
  | keyword (word : Keyword)
  | unknown
deriving DecidableEq, Repr

namespace Kind

/-- The kinds before the reserved words, in the order of their codes. -/
def basic : List Kind := [
  .invalid, .eof, .newline, .ident, .number, .string, .logical, .reserved, .char,
  .plus, .minus, .star, .slash, .eq, .eqEq, .notEq, .lt, .ltEq, .gt, .gtEq,
  .lParen, .rParen, .lBracket, .rBracket, .comma, .dot, .colon, .colonAssign, .semicolon,
  .atSign, .question, .questionQuestion, .and, .or, .not]

/-- The kind with a code. One code is left free before the reserved words. -/
def ofCode (code : Nat) : Kind :=
  (basic ++ Kind.unknown :: Keyword.all.map Kind.keyword).getD code .unknown

def name : Kind → String
  | .invalid => "Invalid"
  | .eof => "EOF"
  | .newline => "Newline"
  | .ident => "Ident"
  | .number => "Number"
  | .string => "String"
  | .logical => "Logical"
  | .reserved => "Keyword"
  | .char => "Char"
  | .plus => "Plus"
  | .minus => "Minus"
  | .star => "Star"
  | .slash => "Slash"
  | .eq => "Eq"
  | .eqEq => "EqEq"
  | .notEq => "NotEq"
  | .lt => "Lt"
  | .ltEq => "LtEq"
  | .gt => "Gt"
  | .gtEq => "GtEq"
  | .lParen => "LParen"
  | .rParen => "RParen"
  | .lBracket => "LBracket"
  | .rBracket => "RBracket"
  | .comma => "Comma"
  | .dot => "Dot"
  | .colon => "Colon"
  | .colonAssign => "ColonAssign"
  | .semicolon => "Semicolon"
  | .atSign => "At"
  | .question => "Question"
  | .questionQuestion => "QuestionQuestion"
  | .and => "And"
  | .or => "Or"
  | .not => "Not"
  | .keyword word => word.name
  | .unknown => "Kind(?)"

/-- Whether a kind is a reserved word of any dialect. -/
def isKeyword : Kind → Bool
  | .reserved | .keyword _ => true
  | _ => false

def isLiteral : Kind → Bool
  | .number | .string | .logical => true
  | _ => false

/-- Whether a kind ends a statement. -/
def isEnd : Kind → Bool
  | .newline | .eof => true
  | _ => false

end Kind

end PrgScript
