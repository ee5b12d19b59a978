import PrgScript.Text.Case

/-!
# Console colours

A colour is one of eight hues, bright or not. Scripts name colours by word or by the
usual letter codes; listings show them by their red, green and blue parts.
-/

namespace PrgScript

/-- A console colour: the number of its hue and its brightness. -/
structure Color where
  base : UInt8
  bright : Bool := false
deriving DecidableEq, Repr, Inhabited

namespace Color

def black : Color := ⟨0, false⟩
def red : Color := ⟨1, false⟩
def green : Color := ⟨2, false⟩
def brown : Color := ⟨3, false⟩
def blue : Color := ⟨4, false⟩
def magenta : Color := ⟨5, false⟩
def cyan : Color := ⟨6, false⟩
def white : Color := ⟨7, false⟩

/-- The names and letter codes of colours, in upper case. Gray and yellow are bright. -/
def names : List (String × Color) := [
  ("N", black), ("BLACK", black), ("B", blue), ("BLUE", blue), ("G", green), ("GREEN", green),
  ("BG", cyan), ("GB", cyan), ("CYAN", cyan), ("R", red), ("RED", red), ("RB", magenta),
  ("BR", magenta), ("MAGENTA", magenta), ("GR", brown), ("RG", brown), ("BROWN", brown),
  ("W", white), ("WHITE", white), ("GRAY", ⟨0, true⟩), ("GREY", ⟨0, true⟩), ("YELLOW", ⟨3, true⟩)]

/-- The colour with a name, in any letter case. -/
def ofName? (name : Text) : Option Color :=
  let key := Text.upper name
  (names.find? fun (known, _) => Text.ofString known == key).map (·.2)

def rgb (c : Color) : Nat × Nat × Nat :=
  if c.base = 3 ∧ !c.bright then (170, 85, 0)
  else
    let part (bit : UInt8) : Nat :=
      match c.base &&& bit != 0, c.bright with
      | true, true => 255
      | true, false => 170
      | false, true => 85
      | false, false => 0
    (part 1, part 2, part 4)

/-- A colour as listings show it. -/
def text (c : Color) : Text :=
  let (r, g, b) := c.rgb
  "rgb(" ++ Text.ofNat r ++ ", " ++ Text.ofNat g ++ ", " ++ Text.ofNat b ++ ")"

end Color

structure ColorPair where
  foreground : Color
  background : Color
deriving DecidableEq, Repr, Inhabited

/-- White on black, the colours in effect before any other choice. -/
def ColorPair.default : ColorPair := ⟨Color.white, Color.black⟩

end PrgScript
