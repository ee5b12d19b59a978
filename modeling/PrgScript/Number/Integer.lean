import PrgScript.Number.Reading

/-!
# Whole numbers from text

A whole number is written with an optional sign, in decimal or after a mark for its
base: `0b` for binary, `0o` or a single zero for octal, `0x` for hexadecimal. Underscores
may separate digits. It must be a 64-bit number.
-/

namespace PrgScript.Number

/-- Splits the mark for a base off. -/
def splitBase : Text → Nat × Text
  | 48 :: mark :: digit :: rest =>
    if mark = 98 || mark = 66 then (2, digit :: rest)
    else if mark = 111 || mark = 79 then (8, digit :: rest)
    else if mark = 120 || mark = 88 then (16, digit :: rest)
    else (8, mark :: digit :: rest)
  | 48 :: rest => (8, rest)
  | t => (10, t)

/-- Reads digits into a number so far; underscores are passed over. A number that has grown too
large is refused at once, whatever follows. -/
def readDigits (base : Nat) (n : Nat) : Text → Except ReadError Nat
  | [] => .ok n
  | b :: t =>
    if b = 95 then readDigits base n t
    else
      match digit? 16 b with
      | none => .error .malformed
      | some d =>
        if base ≤ d then .error .malformed
        else if 2 ^ 64 ≤ n * base + d then .error .outOfRange
        else readDigits base (n * base + d) t

def readInteger (t : Text) : Except ReadError Int := do
  let (negative, body) := splitSign t
  if body = [] then throw .malformed
  let (base, digits) := splitBase body
  let n ← readDigits base 0 digits
  if t.contains 95 && !underscoresFitNumber t then throw .malformed
  if n < 2 ^ 63 ∨ (negative ∧ n = 2 ^ 63) then return if negative then -n else n
  throw .outOfRange

end PrgScript.Number
