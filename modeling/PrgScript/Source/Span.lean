import PrgScript.Text.Basic

/-!
# Positions and spans

Offsets count bytes from zero; lines and columns count from one, columns in
characters. Offsets are 32-bit numbers.
-/

namespace PrgScript

/-- A place in a script: its line and the column in it, counted from one. -/
structure LineCol where
  line : Nat
  col : Nat
deriving DecidableEq, Repr, Inhabited

structure Pos where
  offset : Nat := 0
  line : Nat := 1
  col : Nat := 1
deriving DecidableEq, Repr, Inhabited

/-- A half-open range of bytes in one file. -/
structure Span where
  file : Nat := 0
  start : Nat := 0
  stop : Nat := 0
deriving DecidableEq, Repr, Inhabited

namespace Span

def isEmpty (s : Span) : Bool := s.start == s.stop

/-- The number of bytes in a span, as a 32-bit difference. -/
def length (s : Span) : Nat := (UInt32.ofNat s.stop - UInt32.ofNat s.start).toNat

def text (s : Span) : Text :=
  Text.ofNat s.file ++ ":" ++ Text.ofNat s.start ++ "-" ++ Text.ofNat s.stop

/-- The smallest span that holds both; a span of another file is not joined. -/
def cover (s t : Span) : Span :=
  if s.file = t.file then { s with start := min s.start t.start, stop := max s.stop t.stop } else s

end Span

end PrgScript
