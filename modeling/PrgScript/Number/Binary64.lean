import PrgScript.Number.Word

/-!
# Script numbers exactly

Script numbers are 64-bit binary floating-point numbers. This module takes a number
apart into a whole number times a power of two and goes back from an exact fraction
to the nearest number, a tie going to the even mantissa. Both directions work in
whole numbers, so reading and printing are exact.
-/

namespace PrgScript.Number

/-- A number taken apart. A finite one is `mantissa * 2 ^ exponent` up to its sign. -/
inductive Parts where
  | notANumber
  | infinite (negative : Bool)
  | finite (negative : Bool) (mantissa : Nat) (exponent : Int)

def leastExponent : Int := -1074

def greatestExponent : Int := 971

def parts (x : Float) : Parts :=
  let bits := x.toBits.toNat
  let negative := bits / 2 ^ 63 % 2 == 1
  let field : Nat := bits / 2 ^ 52 % 2 ^ 11
  let fraction : Nat := bits % 2 ^ 52
  if field = 0x7FF then
    if fraction = 0 then .infinite negative else .notANumber
  else if field = 0 then .finite negative fraction leastExponent
  else .finite negative (fraction + 2 ^ 52) ((field : Int) - 1075)

/-- The quotient rounded to the nearest whole number, a half going to the even neighbour. -/
def roundQuotient (num den : Nat) : Nat :=
  let whole := num / den
  let twice := 2 * (num % den)
  if twice < den then whole
  else if den < twice then whole + 1
  else whole + whole % 2

/-- The fraction `num / den` times two to the power `exponent`, as a fraction. -/
def scaleTwo (num den : Nat) (exponent : Int) : Nat × Nat :=
  if exponent < 0 then (num, den * Nat.pow 2 exponent.natAbs)
  else (num * Nat.pow 2 exponent.natAbs, den)

/-- The fraction `num / den` times ten to the power `exponent`, as a fraction. -/
def scaleTen (num den : Nat) (exponent : Int) : Nat × Nat :=
  if exponent < 0 then (num, den * Nat.pow 10 exponent.natAbs)
  else (num * Nat.pow 10 exponent.natAbs, den)

/-- The power of two at or just below a positive fraction. -/
def binaryOrder (num den : Nat) : Int :=
  let guess : Int := (Nat.log2 num : Int) - (Nat.log2 den : Int)
  let (n, d) := scaleTwo num den (-guess)
  if d ≤ n then guess else guess - 1

/-- The bits of the non-negative number nearest to a fraction, or `none` if that is beyond the
greatest finite number. -/
def nearestBits (num den : Nat) : Option Nat :=
  if num = 0 then some 0
  else
    let exponent := max (binaryOrder num den - 52) leastExponent
    let (n, d) := scaleTwo num den (-exponent)
    let rounded := roundQuotient n d
    let (mantissa, exponent) :=
      if rounded = 2 ^ 53 then (2 ^ 52, exponent + 1) else (rounded, exponent)
    if greatestExponent < exponent then none
    else if mantissa < 2 ^ 52 then some mantissa
    else some ((exponent + 1075).toNat * 2 ^ 52 + (mantissa - 2 ^ 52))

/-- The number with the given sign and the given bits below the sign. -/
def ofMagnitude (negative : Bool) (bits : Nat) : Float :=
  Float.ofBits (UInt64.ofNat (if negative then bits + 2 ^ 63 else bits))

def infinity (negative : Bool) : Float := ofMagnitude negative (0x7FF * 2 ^ 52)

def notANumber : Float := Float.ofBits 0x7FF8000000000001

end PrgScript.Number
