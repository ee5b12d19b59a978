import PrgScript.Text.Basic

/-!
# Characters of a text

Reading takes the longest valid UTF-8 character at the front of a text. A byte that
starts no valid character stands alone for the replacement character, so every text
is a sequence of characters and reading it never stops early.
-/

namespace PrgScript.Text

/-- The character that stands for a byte outside every valid character. -/
def replacement : Char := Char.ofNat 0xFFFD

def isContinuation (b : UInt8) : Bool := 0x80 ≤ b && b ≤ 0xBF

/-- The six payload bits of a continuation byte. -/
def payload (b : UInt8) : Nat := b.toNat % 64

/-- The bytes that may follow the lead byte of a three-byte character. -/
def isSecondOfThree (lead b : UInt8) : Bool :=
  if lead = 0xE0 then 0xA0 ≤ b && b ≤ 0xBF
  else if lead = 0xED then 0x80 ≤ b && b ≤ 0x9F
  else isContinuation b

def isSecondOfFour (lead b : UInt8) : Bool :=
  if lead = 0xF0 then 0x90 ≤ b && b ≤ 0xBF
  else if lead = 0xF4 then 0x80 ≤ b && b ≤ 0x8F
  else isContinuation b

/-- The character at the front of `lead :: rest` and the number of bytes after `lead` that
belong to it. -/
def decode (lead : UInt8) (rest : Text) : Char × Nat :=
  if lead < 0x80 then (Char.ofNat lead.toNat, 0)
  else if 0xC2 ≤ lead && lead ≤ 0xDF then
    match rest with
    | b :: _ =>
      if isContinuation b then (Char.ofNat (lead.toNat % 32 * 64 + payload b), 1)
      else (replacement, 0)
    | [] => (replacement, 0)
  else if 0xE0 ≤ lead && lead ≤ 0xEF then
    match rest with
    | b :: c :: _ =>
      if isSecondOfThree lead b && isContinuation c then
        (Char.ofNat (lead.toNat % 16 * 4096 + payload b * 64 + payload c), 2)
      else (replacement, 0)
    | _ => (replacement, 0)
  else if 0xF0 ≤ lead && lead ≤ 0xF4 then
    match rest with
    | b :: c :: d :: _ =>
      if isSecondOfFour lead b && isContinuation c && isContinuation d then
        (Char.ofNat (lead.toNat % 8 * 262144 + payload b * 4096 + payload c * 64 + payload d), 3)
      else (replacement, 0)
    | _ => (replacement, 0)
  else (replacement, 0)

def startsValid (lead : UInt8) (rest : Text) : Bool :=
  lead < 0x80 || (decode lead rest).2 != 0

/-- The characters of a text whose first `skip` bytes belong to a character already read. -/
def charsAfter : Nat → Text → List Char
  | _, [] => []
  | skip + 1, _ :: t => charsAfter skip t
  | 0, b :: t => (decode b t).1 :: charsAfter (decode b t).2 t

/-- The characters of a text, a byte outside every valid character read as the
replacement character. -/
def chars (t : Text) : List Char := charsAfter 0 t

/-- The characters of a text with the numbers of their bytes, its first `skip` bytes apart. -/
def sizedCharsAfter : Nat → Text → List (Char × Nat)
  | _, [] => []
  | skip + 1, _ :: t => sizedCharsAfter skip t
  | 0, b :: t => ((decode b t).1, (decode b t).2 + 1) :: sizedCharsAfter (decode b t).2 t

def sizedChars (t : Text) : List (Char × Nat) := sizedCharsAfter 0 t

/-- Whether a text is UTF-8 throughout, its first `skip` bytes apart. -/
def isValidAfter : Nat → Text → Bool
  | _, [] => true
  | skip + 1, _ :: t => isValidAfter skip t
  | 0, b :: t => startsValid b t && isValidAfter (decode b t).2 t

def isValid (t : Text) : Bool := isValidAfter 0 t

def ofChar (c : Char) : Text := String.utf8EncodeChar c

def ofChars (cs : List Char) : Text := cs.flatMap ofChar

/-- Fills with blanks on the right up to `width` characters. -/
def padRightChars (width : Nat) (t : Text) : Text := t ++ blanks (width - (chars t).length)

/-- The number of bytes of the last character of a text, given its bytes from the last to the
first: of the valid character that ends there, else one. -/
def lastWidth : Text → Nat
  | [] => 0
  | b :: before =>
    if b < 0x80 then 1
    else
      let lead := (before.takeWhile isContinuation).length + 2
      let bytes := ((b :: before).take lead).reverse
      match bytes with
      | [] => 1
      | l :: rest => if lead ≤ 4 ∧ (decode l rest).2 + 1 = lead then lead else 1

end PrgScript.Text
