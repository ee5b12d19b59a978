import PrgScript.Pack.Basic

/-!
# Reading packed values

The first byte of a value announces its kind and how its size is told. Reading stops
at the end of the first value; what follows is not looked at.
-/

namespace PrgScript.Pack

/-- The number that bytes stand for, the highest first. -/
def ofBigEndian (t : Text) : Nat := t.foldl (fun n b => n * 256 + b.toNat) 0

/-- Takes a number of bytes, if there are so many. -/
def take? (n : Nat) (t : Text) : Option (Text × Text) :=
  let taken := t.take n
  if taken.length = n then some (taken, t.drop n) else none

/-- Takes a number of `width` bytes. -/
def takeNat? (width : Nat) (t : Text) : Option (Nat × Text) :=
  (take? width t).map fun (digits, rest) => (ofBigEndian digits, rest)

/-- Takes a number of `width` bytes, of which the upper half stands for negative numbers. -/
def takeInt? (width : Nat) (t : Text) : Option (Int × Text) :=
  (takeNat? width t).map fun (n, rest) =>
    (if n < Nat.pow 2 (8 * width - 1) then n else n - Nat.pow 2 (8 * width), rest)

/-- What the first byte of a value announces. -/
inductive Head where
  | value (v : Pack)
  | nat (width : Nat)
  | int (width : Nat)
  | float
  | text (width small : Nat)
  | bytes (width : Nat)
  | list (width small : Nat)
  | record (width small : Nat)

namespace Head

/-- Kinds whose first byte does not hold their size. A width is the number of bytes of the number
that follows. -/
def codes : List (UInt8 × Head) := [
  (0xC0, .value .nil), (0xC2, .value (.bool false)), (0xC3, .value (.bool true)),
  (0xC4, .bytes 1), (0xC5, .bytes 2), (0xC6, .bytes 4), (0xCB, .float),
  (0xCC, .nat 1), (0xCD, .nat 2), (0xCE, .nat 4), (0xCF, .nat 8),
  (0xD0, .int 1), (0xD1, .int 2), (0xD2, .int 4), (0xD3, .int 8),
  (0xD9, .text 1 0), (0xDA, .text 2 0), (0xDB, .text 4 0), (0xDC, .list 2 0), (0xDD, .list 4 0),
  (0xDE, .record 2 0), (0xDF, .record 4 0)]

def ofByte? (b : UInt8) : Option Head :=
  if b < 0x80 then some (.value (.int b.toNat))
  else if b < 0x90 then some (.record 0 (b - 0x80).toNat)
  else if b < 0xA0 then some (.list 0 (b - 0x90).toNat)
  else if b < 0xC0 then some (.text 0 (b - 0xA0).toNat)
  else if 0xE0 ≤ b then some (.value (.int ((b.toNat : Int) - 256)))
  else codes.lookup b

end Head

/-- Takes a size: the number of `width` bytes, or `small` without any. -/
def takeSize? (width small : Nat) (t : Text) : Option (Nat × Text) :=
  (takeNat? width t).map fun (n, rest) => (n + small, rest)

def takeText? (t : Text) : Option (Text × Text) := do
  match t with
  | [] => none
  | b :: rest =>
    match Head.ofByte? b with
    | some (.text width small) =>
      let (size, rest) ← takeSize? width small rest
      take? size rest
    | _ => none

mutual

/-- Takes a value. The bound is at least the number of bytes, since every value takes one. -/
def takeValue? : Nat → Text → Option (Pack × Text)
  | 0, _ => none
  | _ + 1, [] => none
  | bound + 1, b :: rest =>
    match Head.ofByte? b with
    | none => none
    | some (.value v) => some (v, rest)
    | some (.nat width) => (takeNat? width rest).map fun (n, rest) => (.int n, rest)
    | some (.int width) => (takeInt? width rest).map fun (n, rest) => (.int n, rest)
    | some .float => (takeNat? 8 rest).map fun (n, rest) => (.float (UInt64.ofNat n), rest)
    | some (.text width small) => do
      let (size, rest) ← takeSize? width small rest
      let (value, rest) ← take? size rest
      return (.text value, rest)
    | some (.bytes width) => do
      let (size, rest) ← takeSize? width 0 rest
      let (value, rest) ← take? size rest
      return (.bytes value, rest)
    | some (.list width small) => do
      let (size, rest) ← takeSize? width small rest
      let (items, rest) ← takeItems? bound size rest
      return (.list items, rest)
    | some (.record width small) => do
      let (size, rest) ← takeSize? width small rest
      let (fields, rest) ← takeFields? bound size rest
      return (.record fields, rest)

def takeItems? : Nat → Nat → Text → Option (List Pack × Text)
  | _, 0, t => some ([], t)
  | 0, _ + 1, _ => none
  | bound + 1, count + 1, t => do
    let (item, t) ← takeValue? bound t
    let (items, t) ← takeItems? bound count t
    return (item :: items, t)

def takeFields? : Nat → Nat → Text → Option (List (Text × Pack) × Text)
  | _, 0, t => some ([], t)
  | 0, _ + 1, _ => none
  | bound + 1, count + 1, t => do
    let (name, t) ← takeText? t
    let (value, t) ← takeValue? bound t
    let (fields, t) ← takeFields? bound count t
    return ((name, value) :: fields, t)

end

/-- The value that bytes start with. -/
def read? (t : Text) : Option Pack := (takeValue? (t.length + 1) t).map (·.1)

end PrgScript.Pack
