import PrgScript.Dialect.Basic
import PrgScript.Token.Kind

/-!
# Reserved words

The reserved words of each dialect. Those of dBase and Pascal are recognised in any
letter case, those of Lisp only as they are written here.
-/

namespace PrgScript

/-- The spellings of the reserved words of the dBase dialect, in upper case. -/
def Keyword.spellings : List (String × Keyword) := [
  ("PARAMETER", .kwParameter), ("PARAMETERS", .kwParameter), ("LOCAL", .kwLocal),
  ("IF", .kwIf), ("ELSE", .kwElse), ("ENDIF", .kwEndif), ("FOR", .kwFor), ("TO", .kwTo),
  ("STEP", .kwStep), ("NEXT", .kwNext), ("ENDFOR", .kwNext), ("DO", .kwDo),
  ("WHILE", .kwWhile), ("ENDDO", .kwEnddo), ("RETURN", .kwReturn), ("SET", .kwSet),
  ("COLOR", .kwColor), ("SAY", .kwSay), ("CLASS", .kwClass), ("OF", .kwOf),
  ("ENDCLASS", .kwEndclass), ("THIS", .kwThis), ("FORM", .kwForm),
  ("CONTAINER", .kwContainer), ("GRID", .kwGrid), ("PUSHBUTTON", .kwPushbutton),
  ("MEMO", .kwMemo), ("TEXT", .kwText), ("EDITFIELD", .kwEditfield)]

namespace Dialect

/-- The reserved words of the Pascal dialect, in upper case. -/
def pascalWords : List String := [
  "PROGRAM", "BEGIN", "END", "VAR", "CONST", "TYPE", "PROCEDURE", "FUNCTION", "IF", "THEN",
  "ELSE", "WHILE", "DO", "REPEAT", "UNTIL", "FOR", "TO", "DOWNTO", "CASE", "OF", "AND", "OR",
  "NOT", "DIV", "MOD", "ARRAY", "RECORD"]

/-- The reserved words of the Lisp dialect. -/
def lispWords : List String := [
  "defun", "defvar", "defparameter", "let", "let*", "lambda", "if", "cond", "setq", "progn",
  "quote", "nil", "t"]

/-- The kind of a word that is reserved in a dialect. -/
def keyword? (d : Dialect) (word : Text) : Option Kind :=
  match d with
  | .dbase =>
    let key := Text.upper word
    (Keyword.spellings.find? fun (spelling, _) => Text.ofString spelling == key).map
      fun (_, k) => .keyword k
  | .pascal =>
    let key := Text.upper word
    if pascalWords.any (Text.ofString · == key) then some .reserved else none
  | .lisp => if lispWords.any (Text.ofString · == word) then some .reserved else none

end Dialect

end PrgScript
