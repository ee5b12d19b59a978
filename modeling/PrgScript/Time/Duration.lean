import PrgScript.Number.Word
import PrgScript.Text.Basic

/-!
# Durations

Durations count nanoseconds as 64-bit numbers. Their text uses the largest unit that
keeps a digit before the point: hours, minutes and seconds together, or one of the
smaller units alone.
-/

namespace PrgScript.Duration

def largest : Int := 2 ^ 63 - 1

def smallest : Int := -2 ^ 63

/-- The nearest number that is a duration. -/
def saturate (n : Int) : Int := max smallest (min largest n)

/-- The whole microseconds of a duration, rounded toward zero. -/
def microseconds (nanoseconds : Int) : Int := nanoseconds.tdiv 1000

/-- The nearest multiple of a unit, a half away from zero. -/
def roundTo (unit : Nat) (nanoseconds : Int) : Int :=
  let m := nanoseconds.natAbs
  let rest := m % unit
  let magnitude : Int := if 2 * rest < unit then m - rest else m - rest + unit
  saturate (if nanoseconds < 0 then -magnitude else magnitude)

def trimZeros (digits : Text) : Text := (digits.reverse.dropWhile (· == 48)).reverse

/-- A decimal number given without its point, behind which `places` digits stand. -/
def decimal (places n : Nat) : Text :=
  let unit := Nat.pow 10 places
  let fraction := trimZeros (Text.padZero places (Text.ofNat (n % unit)))
  Text.ofNat (n / unit) ++ Text.onlyIf (fraction ≠ []) ("." ++ fraction)

/-- The text of a positive number of nanoseconds. -/
def magnitudeText (n : Nat) : Text :=
  if n < 1000 then Text.ofNat n ++ "ns"
  else if n < 1000000 then decimal 3 n ++ "µs"
  else if n < 1000000000 then decimal 6 n ++ "ms"
  else
    let seconds := n / 1000000000
    let rest := decimal 9 (seconds % 60 * 1000000000 + n % 1000000000) ++ "s"
    let minutes := seconds / 60
    if minutes = 0 then rest
    else
      let rest := Text.ofNat (minutes % 60) ++ "m" ++ rest
      if minutes / 60 = 0 then rest else Text.ofNat (minutes / 60) ++ "h" ++ rest

def text (nanoseconds : Int) : Text :=
  if nanoseconds = 0 then "0s"
  else
    Text.onlyIf (nanoseconds < 0) "-" ++ magnitudeText nanoseconds.natAbs

end PrgScript.Duration
