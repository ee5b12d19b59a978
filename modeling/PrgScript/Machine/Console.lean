import PrgScript.Program.Color

/-!
# Consoles

A console is all that a running script can reach of the outside world: printing at the
current place, printing at a place on the screen, and choosing colours. A call may
fail with a message.
-/

namespace PrgScript

/-- What can be done to a console whose state is of type `σ`. Rows and columns count from zero. A
script only uses those from zero on. -/
structure Console (σ : Type) where
  say : Int → Int → Text → σ → Except Text σ
  print : Text → σ → Except Text σ
  setColor : ColorPair → σ → Except Text σ

/-- A console on which every call fails. -/
def Console.down : Console Unit where
  say _ _ _ _ := .error "console down: say"
  print _ _ := .error "console down: print"
  setColor _ _ := .error "console down: color"

end PrgScript
