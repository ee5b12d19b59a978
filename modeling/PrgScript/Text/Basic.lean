/-!
# Texts are byte sequences

A script may hold any bytes, and so may the values it computes with, so a text is
the list of its bytes. Literals are written as strings and stand for their UTF-8
bytes. Everything that knows about characters is built on top of this list, in the
modules beside this one.
-/

namespace PrgScript

/-- A text is a sequence of bytes, usually but not necessarily UTF-8. -/
abbrev Text := List UInt8

namespace Text

def ofString (s : String) : Text := s.toUTF8.data.toList

instance : Coe String Text := ⟨ofString⟩

def ofNat (n : Nat) : Text := ofString (Nat.repr n)

/-- The decimal digits of a number, after a minus sign if it is negative. -/
def ofInt : Int → Text
  | .ofNat n => ofNat n
  | .negSucc n => "-" ++ ofNat (n + 1)

def join (separator : Text) : List Text → Text
  | [] => []
  | [part] => part
  | part :: parts => part ++ separator ++ join separator parts

def onlyIf (condition : Prop) [Decidable condition] (t : Text) : Text :=
  if condition then t else []

def newline : UInt8 := 10

def carriageReturn : UInt8 := 13

def blanks (n : Nat) : Text := List.replicate n 32

/-- Fills with blanks on the right up to `width` bytes. -/
def padRight (width : Nat) (t : Text) : Text := t ++ blanks (width - t.length)

def padLeft (width : Nat) (t : Text) : Text := blanks (width - t.length) ++ t

def padZero (width : Nat) (t : Text) : Text := List.replicate (width - t.length) 48 ++ t

/-- The pieces between the bytes equal to `separator`; a text without one is one piece. -/
def splitOn (separator : UInt8) : Text → List Text
  | [] => [[]]
  | b :: t =>
    match splitOn separator t with
    | [] => [[b]]
    | piece :: pieces => if b = separator then [] :: piece :: pieces else (b :: piece) :: pieces

def dropEnding (ending t : Text) : Text :=
  if ending.isSuffixOf t then t.take (t.length - ending.length) else t

def hexDigit (n : Nat) : UInt8 := if n < 10 then UInt8.ofNat (48 + n) else UInt8.ofNat (87 + n)

/-- The lowercase hexadecimal digits of a number, at least `width` of them. -/
def ofHex (width n : Nat) : Text :=
  padZero width ((Nat.toDigits 16 n).map fun c => UInt8.ofNat c.toNat)

/-- Two lowercase hexadecimal digits for each byte. -/
def toHex (t : Text) : Text :=
  t.flatMap fun b => [hexDigit (b.toNat / 16), hexDigit (b.toNat % 16)]

/-- ASCII letters in upper case; every other byte as it is. -/
def upperASCII (t : Text) : Text :=
  t.map fun b => if 97 ≤ b ∧ b ≤ 122 then b - 32 else b

def lowerASCII (t : Text) : Text :=
  t.map fun b => if 65 ≤ b ∧ b ≤ 90 then b + 32 else b

/-- Order of texts: bytewise, a proper beginning first. -/
def less : Text → Text → Bool
  | _, [] => false
  | [], _ :: _ => true
  | a :: s, b :: t => if a < b then true else if b < a then false else less s t

/-- The part before the first occurrence of `separator` and the part after it. -/
def cut? (separator : UInt8) : Text → Option (Text × Text)
  | [] => none
  | b :: t =>
    if b = separator then some ([], t) else (cut? separator t).map fun (l, r) => (b :: l, r)

def hasPart (part : Text) : Text → Bool
  | [] => part.isEmpty
  | b :: t => part.isPrefixOf (b :: t) || hasPart part t

end Text

end PrgScript
