import PrgScript.Text.Utf8

/-!
# JSON documents

Documents with a fixed order of fields, written on one line or indented. Texts are
escaped so that the result may stand in a web page: angle brackets and ampersands
are written by number, and so are the two line separators beyond ASCII.
-/

namespace PrgScript

/-- A JSON document. Numbers are given by their digits, and the fields of a record keep
their order. -/
inductive Json where
  | text (value : Text)
  | number (digits : Text)
  | flag (value : Bool)
  | list (items : List Json)
  | record (fields : List (Text × Json))

namespace Json

def nat (n : Nat) : Json := .number (Text.ofNat n)

def int (n : Int) : Json := .number (Text.ofInt n)

def field (name : String) (value : Json) : Text × Json := (name, value)

/-- A text as a field, left out if it is empty. -/
def textField (name : String) (value : Text) : List (Text × Json) :=
  if value = [] then [] else [field name (.text value)]

/-- The form of one character between double quotes. -/
def escapeChar (c : Char) : Text :=
  match c.toNat with
  | 34 => "\\\""
  | 92 => "\\\\"
  | 8 => "\\b"
  | 12 => "\\f"
  | 10 => "\\n"
  | 13 => "\\r"
  | 9 => "\\t"
  | n =>
    if n < 0x20 ∨ c = '<' ∨ c = '>' ∨ c = '&' ∨ n = 0x2028 ∨ n = 0x2029 then
      "\\u" ++ Text.ofHex 4 n
    else Text.ofChar c

/-- A text in double quotes. A byte outside every valid character stands for the replacement
character. -/
def quote (t : Text) : Text := "\"" ++ (Text.chars t).flatMap escapeChar ++ "\""

mutual

/-- The document on one line. -/
def compact : Json → Text
  | .text value => quote value
  | .number digits => digits
  | .flag value => if value then "true" else "false"
  | .list items => "[" ++ compactItems items ++ "]"
  | .record fields => "\x7b" ++ compactFields fields ++ "\x7d"

def compactItems : List Json → Text
  | [] => []
  | [item] => compact item
  | item :: items => compact item ++ "," ++ compactItems items

def compactFields : List (Text × Json) → Text
  | [] => []
  | [(name, value)] => quote name ++ ":" ++ compact value
  | (name, value) :: fields => quote name ++ ":" ++ compact value ++ "," ++ compactFields fields

end

/-- The start of a line at a nesting depth, two blanks a level. -/
def lineStart (depth : Nat) : Text := "\n" ++ Text.blanks (2 * depth)

mutual

/-- The document over several lines, starting at a nesting depth. -/
def indented (depth : Nat) : Json → Text
  | .text value => quote value
  | .number digits => digits
  | .flag value => if value then "true" else "false"
  | .list [] => "[]"
  | .list (item :: items) =>
    "[" ++ indentedItems (depth + 1) (item :: items) ++ lineStart depth ++ "]"
  | .record [] => "\x7b\x7d"
  | .record (field :: fields) =>
    "\x7b" ++ indentedFields (depth + 1) (field :: fields) ++ lineStart depth ++ "\x7d"

def indentedItems (depth : Nat) : List Json → Text
  | [] => []
  | [item] => lineStart depth ++ indented depth item
  | item :: items => lineStart depth ++ indented depth item ++ "," ++ indentedItems depth items

def indentedFields (depth : Nat) : List (Text × Json) → Text
  | [] => []
  | [(name, value)] => lineStart depth ++ quote name ++ ": " ++ indented depth value
  | (name, value) :: fields =>
    lineStart depth ++ quote name ++ ": " ++ indented depth value ++ "," ++
      indentedFields depth fields

end

/-- The document over several lines, ended by a line feed. -/
def document (doc : Json) : Text := indented 0 doc ++ "\n"

end Json

end PrgScript
