import PrgScript.Text.Printable
import PrgScript.Text.Utf8

/-!
# Quoted texts

A text in double quotes, as messages and listings show it: printable characters as
themselves, the usual short escapes, and every other character or stray byte by its
number, so that the quoted form of any text is plain printable UTF-8.
-/

namespace PrgScript.Text

def quoteChar (c : Char) : Text :=
  if c = '"' then "\\\""
  else if c = '\\' then "\\\\"
  else if isPrintable c then ofChar c
  else
    match c.toNat with
    | 7 => "\\a"
    | 8 => "\\b"
    | 12 => "\\f"
    | 10 => "\\n"
    | 13 => "\\r"
    | 9 => "\\t"
    | 11 => "\\v"
    | n =>
      if n < 0x20 ∨ n = 0x7F then "\\x" ++ ofHex 2 n
      else if n < 0x10000 then "\\u" ++ ofHex 4 n
      else "\\U" ++ ofHex 8 n

/-- The quoted form of a text whose first `skip` bytes belong to a character already written. -/
def quoteAfter : Nat → Text → Text
  | _, [] => []
  | skip + 1, _ :: t => quoteAfter skip t
  | 0, b :: t =>
    if startsValid b t then quoteChar (decode b t).1 ++ quoteAfter (decode b t).2 t
    else "\\x" ++ ofHex 2 b.toNat ++ quoteAfter 0 t

/-- The text in double quotes, with escapes. -/
def quote (t : Text) : Text := "\"" ++ quoteAfter 0 t ++ "\""

end PrgScript.Text
