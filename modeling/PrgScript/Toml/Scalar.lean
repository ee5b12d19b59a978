import PrgScript.Number.Integer
import PrgScript.Text.Utf8
import PrgScript.Toml.Basic

/-!
# Numbers, dates and strings of configuration documents

Which texts are numbers, dates or times, and what a string stands for.
-/

namespace PrgScript.Toml

def isHexDigit (b : UInt8) : Bool := (Number.digit? 16 b).isSome

/-- Whether every underscore follows a digit and the text ends with one. -/
def underscoresFit (t : Text) : Bool := fitAfter false t
where
  fitAfter : Bool → Text → Bool
    | after, [] => after
    | after, b :: t => (b != 95 || after) && fitAfter (isHexDigit b) t

/-- Whether a number starts with a zero that is not its only digit before a point. -/
def hasLeadingZero : Text → Bool
  | 48 :: b :: _ => b != 98 && b != 111 && b != 120
  | 43 :: 48 :: _ :: _ | 45 :: 48 :: _ :: _ => true
  | _ => false

def readInt? (t : Text) : Option Int :=
  if underscoresFit t && !hasLeadingZero t then (Number.readInteger t).toOption else none

/-- Whether every point is followed by a digit. -/
def pointsFit : Text → Bool
  | [] => true
  | 46 :: b :: t => (48 ≤ b && b ≤ 57) && pointsFit (b :: t)
  | [46] => false
  | _ :: t => pointsFit t

/-- The nonempty stretches between points and exponent marks. -/
def floatParts (t : Text) : List Text :=
  (Text.splitOn 46 (t.map fun b => if b = 101 ∨ b = 69 then 46 else b)).filter (· != [])

/-- Whether a text is a number with a fraction or an exponent. -/
def isFloat (t : Text) : Bool :=
  let parts := floatParts t
  parts.all underscoresFit && pointsFit t && !((parts.head?.map hasLeadingZero).getD false) &&
    (Number.read (t.filter (· != 95))).isOk

/-- The number that exactly so many digits make. -/
def digits? (count : Nat) (t : Text) : Option Nat :=
  if t.length = count ∧ t.all (fun b => 48 ≤ b && b ≤ 57) then
    some (t.foldl (fun n b => n * 10 + (b.toNat - 48)) 0)
  else none

/-- Whether a text is so many digits for a number within bounds. -/
def isNumberIn (count low high : Nat) (t : Text) : Bool :=
  match digits? count t with
  | some n => low ≤ n && n ≤ high
  | none => false

def daysIn (year month : Nat) : Nat :=
  if month = 2 then
    if year % 4 = 0 ∧ (year % 100 ≠ 0 ∨ year % 400 = 0) then 29 else 28
  else if month = 4 ∨ month = 6 ∨ month = 9 ∨ month = 11 then 30
  else 31

def isDate (t : Text) : Bool :=
  match (Text.splitOn 45 t) with
  | [year, month, day] =>
    match digits? 4 year, digits? 2 month, digits? 2 day with
    | some y, some m, some d => 1 ≤ m && m ≤ 12 && 1 ≤ d && d ≤ daysIn y m
    | _, _, _ => false
  | _ => false

/-- Whether a text is a second, possibly with a fraction. -/
def isSecond (t : Text) : Bool :=
  match Text.cut? 46 t with
  | none => isNumberIn 2 0 59 t
  | some (whole, fraction) =>
    isNumberIn 2 0 59 whole && fraction != [] && (digits? fraction.length fraction).isSome

/-- Whether a text is a time of day. The hour may have a single digit. -/
def isTimeOfDay (t : Text) : Bool :=
  match Text.splitOn 58 t with
  | [hour, minute, second] =>
    (isNumberIn 1 0 9 hour || isNumberIn 2 0 23 hour) && isNumberIn 2 0 59 minute && isSecond second
  | _ => false

/-- Whether a text is the offset of a time zone, without its sign. -/
def isOffset (t : Text) : Bool :=
  match Text.splitOn 58 t with
  | [hour, minute] => isNumberIn 2 0 24 hour && isNumberIn 2 0 60 minute
  | _ => false

def isZonedTime (t : Text) : Bool :=
  if t.getLast? = some 90 then isTimeOfDay t.dropLast
  else
    match Text.cut? 43 t, Text.cut? 45 t with
    | some (time, offset), none | none, some (time, offset) => isTimeOfDay time && isOffset offset
    | _, _ => isTimeOfDay t

/-- Whether a text is a date, a time of day or both. -/
def isTime (t : Text) : Bool :=
  let upper := t.map fun b => if b = 122 then 90 else if b = 116 ∨ b = 32 then 84 else b
  match Text.cut? 84 upper with
  | some (date, time) => isDate date && isZonedTime time
  | none => isDate upper || isTimeOfDay upper

def escapedChar? (digits : List Char) : Option Char := do
  let values ← digits.mapM fun c => Number.digit? 16 (UInt8.ofNat c.toNat)
  let n := values.foldl (fun n d => n * 16 + d) 0
  if n < 0x110000 ∧ ¬ (0xD800 ≤ n ∧ n < 0xE000) ∧ digits.all (·.toNat < 128) then
    return Char.ofNat n
  none

def shortEscapes : List (Char × Char) :=
  [('b', '\x08'), ('t', '\t'), ('n', '\n'), ('f', '\x0c'), ('r', '\r'), ('"', '"'), ('\\', '\\')]

/-- What follows a backslash: the character it stands for, and the rest. -/
def unescape? : List Char → Option (Char × List Char)
  | 'u' :: a :: b :: c :: d :: rest => (escapedChar? [a, b, c, d]).map (·, rest)
  | 'U' :: a :: b :: c :: d :: e :: f :: g :: h :: rest =>
    (escapedChar? [a, b, c, d, e, f, g, h]).map (·, rest)
  | c :: rest => (shortEscapes.lookup c).map (·, rest)
  | [] => none

end PrgScript.Toml
