import PrgScript.Machine.Console
import PrgScript.Number.Word
import PrgScript.Text.Style

/-!
# Terminals

A terminal shows texts in colours and at places of the screen. Without escape
sequences, colours are dropped and a text for a place goes on a line of its own.
-/

namespace PrgScript

/-- A terminal: whether it understands escape sequences, the colours in effect, and what was
written to it. -/
structure Terminal where
  ansi : Bool
  colors : ColorPair := .default
  written : Array Text := #[]

namespace Terminal

/-- The attribute number of a colour, given those of plain and of bright black. -/
def attributeCode (plain bright : Nat) (c : Color) : Nat :=
  (if c.bright then bright else plain) + c.base.toNat

def painted (t : Terminal) (text : Text) : Text :=
  Text.attributeSequence
      [attributeCode 30 90 t.colors.foreground, attributeCode 40 100 t.colors.background] ++
    text ++ Text.attributeSequence [0]

def write (t : Terminal) (text : Text) : Terminal := { t with written := t.written.push text }

def say (row col : Int) (text : Text) (t : Terminal) : Terminal :=
  if t.ansi then
    t.write ("\x1b[" ++ Text.ofInt (Number.wrap (row + 1)) ++ ";" ++
      Text.ofInt (Number.wrap (col + 1)) ++ "H" ++
      t.painted text)
  else t.write (text ++ "\n")

def print (text : Text) (t : Terminal) : Terminal :=
  if text = [] then t else t.write (if t.ansi then t.painted text else text)

/-- Chooses the colours of what follows. -/
def setColor (colors : ColorPair) (t : Terminal) : Terminal := { t with colors }

def console : Console Terminal where
  say row col text t := .ok (t.say row col text)
  print text t := .ok (t.print text)
  setColor colors t := .ok (t.setColor colors)

def output (t : Terminal) : Text := t.written.toList.flatten

end Terminal

end PrgScript
