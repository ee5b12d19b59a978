import PrgScript.Number.Binary64
import PrgScript.Text.Basic

/-!
# Numbers from text

A number is written in decimal with an optional fraction and power of ten, in
hexadecimal with a power of two, or by name (`inf`, `infinity`, `nan`). Underscores
may separate digits. The value read is the number nearest to the exact one; a value
too large for any finite number is refused.
-/

namespace PrgScript.Number

/-- Why a text is not read as a number. -/
inductive ReadError where
  | malformed
  | outOfRange
deriving DecidableEq, Repr

/-- What has been read of the digits of a number: the digits as one whole number, how many of
them stand after the point, and whether a point or a digit was seen. -/
structure Mantissa where
  value : Nat := 0
  places : Nat := 0
  sawPoint : Bool := false
  sawDigit : Bool := false

/-- The value of a digit in the given base. -/
def digit? (base : Nat) (b : UInt8) : Option Nat :=
  if 48 ≤ b && b ≤ 57 then some (b.toNat - 48)
  else if base = 16 && 97 ≤ b && b ≤ 102 then some (b.toNat - 87)
  else if base = 16 && 65 ≤ b && b ≤ 70 then some (b.toNat - 55)
  else none

/-- Reads digits, underscores and one point; returns what was read and the rest. -/
def readMantissa (base : Nat) (acc : Mantissa) : Text → Mantissa × Text
  | [] => (acc, [])
  | b :: t =>
    if b = 95 then readMantissa base acc t
    else if b = 46 && !acc.sawPoint then
      readMantissa base { acc with sawPoint := true } t
    else
      match digit? base b with
      | some d =>
        readMantissa base
          { acc with
            value := acc.value * base + d
            places := if acc.sawPoint then acc.places + 1 else acc.places
            sawDigit := true } t
      | none => (acc, b :: t)

/-- Reads the digits of an exponent; past ten thousand further digits are ignored. -/
def readExponent (acc : Nat) : Text → Nat × Text
  | [] => (acc, [])
  | b :: t =>
    if b = 95 then readExponent acc t
    else
      match digit? 10 b with
      | some d => readExponent (if acc < 10000 then acc * 10 + d else acc) t
      | none => (acc, b :: t)

/-- Reads the sign of an exponent and at least one digit. -/
def readSignedExponent : Text → Option (Int × Text)
  | [] => none
  | b :: t =>
    let (negative, digits) :=
      if b = 43 then (false, t) else if b = 45 then (true, t) else (false, b :: t)
    match digits with
    | [] => none
    | d :: _ =>
      if 48 ≤ d && d ≤ 57 then
        let (value, rest) := readExponent 0 digits
        some (if negative then -(value : Int) else value, rest)
      else none

/-- What the last byte was when underscores are checked. -/
inductive UnderscoreState where
  | start
  | digit
  | underscore
  | other
deriving DecidableEq

/-- Whether every underscore stands between digits, a base mark counting as a digit. -/
def underscoresFit (hex : Bool) : UnderscoreState → Text → Bool
  | state, [] => state != .underscore
  | state, b :: t =>
    if (digit? (if hex then 16 else 10) b).isSome then underscoresFit hex .digit t
    else if b = 95 then state == .digit && underscoresFit hex .underscore t
    else state != .underscore && underscoresFit hex .other t

def splitSign : Text → Bool × Text
  | 43 :: t => (false, t)
  | 45 :: t => (true, t)
  | t => (false, t)

def underscoresFitNumber (t : Text) : Bool :=
  match (splitSign t).2 with
  | 48 :: mark :: rest =>
    if mark = 120 || mark = 88 then underscoresFit true .digit rest
    else if mark = 98 || mark = 66 || mark = 111 || mark = 79 then underscoresFit false .digit rest
    else underscoresFit false .start (48 :: mark :: rest)
  | rest => underscoresFit false .start rest

/-- The number nearest to `value * 10 ^ exponent`. A value of more than 310 digits before its
point is too large for any number, and one that starts more than 330 places behind it is zero. -/
def ofDecimal (negative : Bool) (value : Nat) (exponent : Int) : Except ReadError Float :=
  if value = 0 then .ok (ofMagnitude negative 0)
  else
    let order : Int := (Nat.repr value).length + exponent
    if 310 < order then .error .outOfRange
    else if order < -330 then .ok (ofMagnitude negative 0)
    else
      let (num, den) := scaleTen value 1 exponent
      match nearestBits num den with
      | some bits => .ok (ofMagnitude negative bits)
      | none => .error .outOfRange

/-- The number nearest to `value * 2 ^ exponent`. -/
def ofBinary (negative : Bool) (value : Nat) (exponent : Int) : Except ReadError Float :=
  if value = 0 then .ok (ofMagnitude negative 0)
  else
    let order : Int := Nat.log2 value + exponent
    if 1100 < order then .error .outOfRange
    else if order < -1200 then .ok (ofMagnitude negative 0)
    else
      let (num, den) := scaleTwo value 1 exponent
      match nearestBits num den with
      | some bits => .ok (ofMagnitude negative bits)
      | none => .error .outOfRange

/-- Reads an unsigned decimal number with all of its text. -/
def readDecimal (negative : Bool) (t : Text) : Except ReadError Float :=
  let (mantissa, rest) := readMantissa 10 {} t
  if !mantissa.sawDigit then .error .malformed
  else
    match rest with
    | [] => ofDecimal negative mantissa.value (-(mantissa.places : Int))
    | b :: rest =>
      if b = 101 || b = 69 then
        match readSignedExponent rest with
        | some (exponent, []) => ofDecimal negative mantissa.value (exponent - mantissa.places)
        | _ => .error .malformed
      else .error .malformed

/-- Reads an unsigned hexadecimal number, its base mark already taken off, with all of its
text; the power of two is required. -/
def readHexadecimal (negative : Bool) (t : Text) : Except ReadError Float :=
  let (mantissa, rest) := readMantissa 16 {} t
  if !mantissa.sawDigit then .error .malformed
  else
    match rest with
    | b :: rest =>
      if b = 112 || b = 80 then
        match readSignedExponent rest with
        | some (exponent, []) => ofBinary negative mantissa.value (exponent - 4 * mantissa.places)
        | _ => .error .malformed
      else .error .malformed
    | [] => .error .malformed

def read (t : Text) : Except ReadError Float :=
  let (negative, body) := splitSign t
  let name := Text.lowerASCII body
  if name = "inf" || name = "infinity" then .ok (infinity negative)
  else if Text.lowerASCII t = "nan" then .ok notANumber
  else if t.contains 95 && !underscoresFitNumber t then .error .malformed
  else
    match body with
    | 48 :: mark :: digit :: rest =>
      if mark = 120 || mark = 88 then readHexadecimal negative (digit :: rest)
      else readDecimal negative body
    | _ => readDecimal negative body

end PrgScript.Number
