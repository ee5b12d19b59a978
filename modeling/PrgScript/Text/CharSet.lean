import PrgScript.Text.Basic

/-!
# Sets of characters by the lengths of their stretches

A set of code points is written as the lengths of the stretches that lie outside and
inside it by turns, from zero on: `[a, b, c]` leaves out the first `a` code points,
holds the next `b`, leaves out `c`, and so does everything behind them.
-/

namespace PrgScript.Text

/-- The lengths of the stretches of code points outside and inside a set by turns. -/
abbrev CharSet := List Nat

namespace CharSet

/-- Membership of a code point: it lies behind the first stretch, and is none of those that the
other stretches, counted from there, leave inside. -/
def contains : CharSet → Nat → Bool
  | [], _ => false
  | length :: lengths, n => length ≤ n && !contains lengths (n - length)

end CharSet

end PrgScript.Text
