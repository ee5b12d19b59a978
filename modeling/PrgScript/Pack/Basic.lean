import PrgScript.Number.Word
import PrgScript.Text.Basic

/-!
# Packed values

MessagePack is a compact binary form for structured values. A value is written as a
byte that tells its kind, and often its size, followed by its content. Numbers are
written in the fewest bytes, the highest byte first.
-/

namespace PrgScript

/-- A structured value. The names of a record are texts. -/
inductive Pack where
  | nil
  | bool (value : Bool)
  | int (value : Int)
  /-- A 64-bit floating point number, given by its bits. -/
  | float (bits : UInt64)
  | text (value : Text)
  | bytes (value : Text)
  | list (items : List Pack)
  | record (fields : List (Text × Pack))
deriving Inhabited

namespace Pack

/-- A number as `width` bytes, the highest first. -/
def bigEndian : Nat → Nat → Text
  | 0, _ => []
  | width + 1, n => bigEndian width (n / 256) ++ [UInt8.ofNat (n % 256)]

def writeInt (n : Int) : Text :=
  if 0 ≤ n then
    let n := n.toNat
    if n < 128 then [UInt8.ofNat n]
    else if n < 2 ^ 8 then 0xCC :: bigEndian 1 n
    else if n < 2 ^ 16 then 0xCD :: bigEndian 2 n
    else if n < 2 ^ 32 then 0xCE :: bigEndian 4 n
    else 0xCF :: bigEndian 8 n
  else if -32 ≤ n then [UInt8.ofNat (n + 256).toNat]
  else 0xD3 :: bigEndian 8 (n + 2 ^ 64).toNat

/-- The size of something whose sizes below `small` are part of its first byte. `code` is the byte
before a larger size of one, two or four bytes; a kind without one-byte sizes gives that of two
bytes twice. -/
def writeSize (small : Nat) (first : UInt8) (code1 code2 code4 : UInt8) (n : Nat) : Text :=
  if n < small then [first + UInt8.ofNat n]
  else if n < 2 ^ 8 ∧ code1 ≠ code2 then code1 :: bigEndian 1 n
  else if n < 2 ^ 16 then code2 :: bigEndian 2 n
  else code4 :: bigEndian 4 n

def writeText (t : Text) : Text := writeSize 32 0xA0 0xD9 0xDA 0xDB t.length ++ t

mutual

def write : Pack → Text
  | .nil => [0xC0]
  | .bool value => [if value then 0xC3 else 0xC2]
  | .int value => writeInt value
  | .float bits => 0xCB :: bigEndian 8 bits.toNat
  | .text value => writeText value
  | .bytes value => writeSize 0 0 0xC4 0xC5 0xC6 value.length ++ value
  | .list items => writeSize 16 0x90 0xDC 0xDC 0xDD items.length ++ writeItems items
  | .record fields => writeSize 16 0x80 0xDE 0xDE 0xDF fields.length ++ writeFields fields

def writeItems : List Pack → Text
  | [] => []
  | item :: items => item.write ++ writeItems items

/-- The bytes of the fields of a record, each name before its value. -/
def writeFields : List (Text × Pack) → Text
  | [] => []
  | (name, value) :: fields => writeText name ++ value.write ++ writeFields fields

end

end Pack

end PrgScript
