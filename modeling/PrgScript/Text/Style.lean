import PrgScript.Text.Basic

/-!
# Painted text

A style is a list of terminal attributes. Painted text stands between the sequence
that turns them on and the one that turns them off again, each attribute by its own
number: bold by 22, a colour by 0.
-/

namespace PrgScript.Text

inductive Attribute where
  | bold | red | green | yellow | blue | cyan
deriving DecidableEq, Repr

namespace Attribute

def onCode : Attribute → Nat
  | .bold => 1
  | .red => 31
  | .green => 32
  | .yellow => 33
  | .blue => 34
  | .cyan => 36

def offCode : Attribute → Nat
  | .bold => 22
  | _ => 0

end Attribute

/-- The escape sequence that sets terminal attributes by their numbers. -/
def attributeSequence (codes : List Nat) : Text :=
  "\x1b[" ++ join ";" (codes.map ofNat) ++ "m"

/-- A text in a style, or as it is if colours are off. -/
def paint (colored : Bool) (style : List Attribute) (t : Text) : Text :=
  if colored then
    attributeSequence (style.map (·.onCode)) ++ t ++ attributeSequence (style.map (·.offCode))
  else t

end PrgScript.Text
