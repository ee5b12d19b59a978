import PrgScript.Number.Binary64
import PrgScript.Text.Basic

/-!
# The shortest decimal of a number

A number is printed with the fewest decimal digits that read back as the same number;
of two such decimals the nearer one is taken, and of two equally near ones the even
one. The notation is positional throughout: no power of ten is ever written.
-/

namespace PrgScript.Number

/-- A decimal `digits * 10 ^ exponent`. -/
structure Decimal where
  digits : Nat
  exponent : Int
deriving DecidableEq, Repr

/-- The values that read back as a finite number, in quarters of a unit of its mantissa: between
`low` and `high`, the ends included exactly when `closed`. -/
structure Reach where
  low : Nat
  high : Nat
  closed : Bool

/-- The values that read back as `mantissa * 2 ^ exponent`. Below a power of two the numbers lie
twice as close. -/
def reach (mantissa : Nat) (exponent : Int) : Reach where
  low := if mantissa = 2 ^ 52 ∧ leastExponent < exponent then 4 * mantissa - 1
    else 4 * mantissa - 2
  high := 4 * mantissa + 2
  closed := mantissa % 2 == 0

/-- Whether `candidate / num * den` lies within reach. -/
def Reach.covers (r : Reach) (candidate num den : Nat) : Bool :=
  let value := candidate * den
  if r.closed then r.low * num ≤ value && value ≤ r.high * num
  else r.low * num < value && value < r.high * num

/-- The power of ten just above a positive fraction: the least `p` with `num / den < 10 ^ p`,
searched upwards from `start`. -/
def decimalOrder (num den : Nat) (start : Int) : Nat → Int
  | 0 => start
  | tries + 1 =>
    let (n, d) := scaleTen num den (-start)
    if n < d then start else decimalOrder num den (start + 1) tries

/-- The decimal with `count` digits nearest to `mantissa * 2 ^ exponent` among its two neighbours
that read back as it, if one does; `order` is the power of ten just above the number. -/
def candidate? (mantissa : Nat) (exponent order : Int) (count : Nat) : Option Decimal :=
  let places : Int := count - order
  let (n₀, d₀) := scaleTwo 1 4 exponent
  -- one quarter of the mantissa's unit, counted in units of the last decimal place
  let (num, den) := scaleTen n₀ d₀ places
  let total := 4 * mantissa * num
  let below := total / den
  let r := reach mantissa exponent
  let hitBelow := r.covers below num den
  let hitAbove := r.covers (below + 1) num den
  let pick (digits : Nat) : Option Decimal := some ⟨digits, -places⟩
  if hitBelow && hitAbove then
    let twice := 2 * (total % den)
    if twice < den then pick below
    else if den < twice then pick (below + 1)
    else pick (below + below % 2)
  else if hitBelow then pick below
  else if hitAbove then pick (below + 1)
  else none

/-- The shortest decimal that reads back as the positive number `mantissa * 2 ^ exponent`. -/
def shortest (mantissa : Nat) (exponent : Int) : Decimal :=
  let (num, den) := scaleTwo mantissa 1 exponent
  let start := (binaryOrder num den * 30103).fdiv 100000 - 1
  let order := decimalOrder num den start 5
  ((List.range 18).findSome? fun n => candidate? mantissa exponent order (n + 1)).getD ⟨0, 0⟩

/-- Moves the zeros at the end of the digits into the exponent. -/
def Decimal.trim (d : Decimal) : Nat → Decimal
  | 0 => d
  | tries + 1 =>
    if d.digits ≠ 0 ∧ d.digits % 10 = 0 then Decimal.trim ⟨d.digits / 10, d.exponent + 1⟩ tries
    else d

def Decimal.positional (d : Decimal) : Text :=
  let digits := Text.ofNat d.digits
  if 0 ≤ d.exponent then digits ++ List.replicate d.exponent.natAbs 48
  else
    let places := d.exponent.natAbs
    if digits.length ≤ places then "0." ++ Text.padZero places digits
    else digits.take (digits.length - places) ++ "." ++ digits.drop (digits.length - places)

/-- The text of a script number: whole numbers without a fraction, other numbers with the
fewest digits that read back. -/
def format (x : Float) : Text :=
  match parts x with
  | .notANumber => "NaN"
  | .infinite negative => if negative then "-Inf" else "+Inf"
  | .finite negative mantissa exponent =>
    let body : Text :=
      if mantissa = 0 then "0" else ((shortest mantissa exponent).trim 20).positional
    if negative then "-" ++ body else body

end PrgScript.Number
