import PrgScript.Text.Basic

/-!
# Configuration documents

A TOML document is a sequence of items: headers that open a table or one more table of
an array, and pairs of a key and a value. A key is a path of names.
-/

namespace PrgScript.Toml

/-- A path of names. -/
abbrev Key := List Text

/-- A value as it is written. Numbers with a fraction, dates and times are told apart from other
values; what they stand for is not needed. -/
inductive Value where
  | text (value : Text)
  | int (value : Int)
  | bool (value : Bool)
  | float
  | time
  | array (items : List Value)
  | inlineTable (fields : List (Key × Value))
deriving Inhabited

def Value.isArray : Value → Bool
  | .array _ => true
  | _ => false

inductive Item where
  | table (key : Key)
  | arrayTable (key : Key)
  | pair (key : Key) (value : Value)

/-- Whether a byte may stand in a name without quotes. -/
def isBare (b : UInt8) : Bool :=
  (48 ≤ b && b ≤ 57) || (65 ≤ b && b ≤ 90) || (97 ≤ b && b ≤ 122) || b == 95 || b == 45

def quotedByte (b : UInt8) : Text :=
  if b = 34 then "\\\""
  else if b = 92 then "\\\\"
  else if b = 8 then "\\b"
  else if b = 9 then "\\t"
  else if b = 10 then "\\n"
  else if b = 12 then "\\f"
  else if b = 13 then "\\r"
  else if b < 32 ∨ b = 127 then "\\u" ++ Text.ofHex 4 b.toNat
  else [b]

/-- A name as it is shown: in quotes if it needs them. -/
def nameText (name : Text) : Text :=
  if name ≠ [] ∧ name.all isBare then name else "\"" ++ name.flatMap quotedByte ++ "\""

def keyText (key : Key) : Text := Text.join "." (key.map nameText)

end PrgScript.Toml
