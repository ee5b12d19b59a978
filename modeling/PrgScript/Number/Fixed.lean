import PrgScript.Number.Binary64
import PrgScript.Text.Basic

/-!
# Numbers with a fixed count of decimal places

The exact value of a number rounded to a given count of places, a tie going to the
even digit. Durations in reports and traces are written this way.
-/

namespace PrgScript.Number

/-- The digits of `num / den` rounded to `places` decimal places. -/
def fixedDigits (num den places : Nat) : Text :=
  let scaled := roundQuotient (num * Nat.pow 10 places) den
  let digits := Text.padZero (places + 1) (Text.ofNat scaled)
  if places = 0 then digits
  else digits.take (digits.length - places) ++ "." ++ digits.drop (digits.length - places)

/-- A number with `places` decimal places. -/
def fixed (places : Nat) (x : Float) : Text :=
  match parts x with
  | .notANumber => "NaN"
  | .infinite negative => if negative then "-Inf" else "+Inf"
  | .finite negative mantissa exponent =>
    let (num, den) := scaleTwo mantissa 1 exponent
    let body := fixedDigits num den places
    if negative then "-" ++ body else body

end PrgScript.Number
