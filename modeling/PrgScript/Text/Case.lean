import PrgScript.Text.Utf8

/-!
# Letter case

Simple case mappings of Unicode 15: one character to one character, independent of
its neighbours. Names of variables and keywords are compared in upper case, loop
variables by case folding; the two differ on a few letters, such as the dotless i.
-/

namespace PrgScript.Text

/-- A run of characters `first`, `first + step`, ... up to `last`, each sent to the character
as far from `target` as it is from `first`. -/
structure CaseRun where
  first : Nat
  last : Nat
  step : Nat
  target : Nat

namespace CaseRun

def covers (run : CaseRun) (n : Nat) : Bool :=
  run.first ≤ n && n ≤ run.last && (n - run.first) % run.step == 0

/-- The image of a character under the runs; a character outside them stays. -/
def apply (runs : List CaseRun) (c : Char) : Char :=
  match runs.find? (·.covers c.toNat) with
  | some run => Char.ofNat (run.target + (c.toNat - run.first))
  | none => c

def one (c target : Nat) : CaseRun := ⟨c, c, 1, target⟩

/-- A run of characters each of which stands before its image. -/
def pairs (first last : Nat) : CaseRun := ⟨first, last, 2, first + 1⟩

def inverse (run : CaseRun) : CaseRun where
  first := run.target
  last := run.target + (run.last - run.first)
  step := run.step
  target := run.first

end CaseRun

/-- Letters beyond ASCII with a simple lower case of their own. -/
def lowerRuns : List CaseRun := [
  ⟨0xC0, 0xD6, 1, 0xE0⟩, ⟨0xD8, 0xDE, 1, 0xF8⟩, .pairs 0x100 0x12E, .one 0x130 0x69,
  .pairs 0x132 0x136, .pairs 0x139 0x147, .pairs 0x14A 0x176, .one 0x178 0xFF, .pairs 0x179 0x17D,
  .one 0x181 0x253, .pairs 0x182 0x184, .one 0x186 0x254, .pairs 0x187 0x187,
  ⟨0x189, 0x18A, 1, 0x256⟩, .pairs 0x18B 0x18B, .one 0x18E 0x1DD, .one 0x18F 0x259,
  .one 0x190 0x25B, .pairs 0x191 0x191, .one 0x193 0x260, .one 0x194 0x263, .one 0x196 0x269,
  .one 0x197 0x268, .pairs 0x198 0x198, .one 0x19C 0x26F, .one 0x19D 0x272, .one 0x19F 0x275,
  .pairs 0x1A0 0x1A4, .one 0x1A6 0x280, .pairs 0x1A7 0x1A7, .one 0x1A9 0x283, .pairs 0x1AC 0x1AC,
  .one 0x1AE 0x288, .pairs 0x1AF 0x1AF, ⟨0x1B1, 0x1B2, 1, 0x28A⟩, .pairs 0x1B3 0x1B5,
  .one 0x1B7 0x292, .pairs 0x1B8 0x1B8, .pairs 0x1BC 0x1BC, .one 0x1C4 0x1C6, .pairs 0x1C5 0x1C5,
  .one 0x1C7 0x1C9, .pairs 0x1C8 0x1C8, .one 0x1CA 0x1CC, .pairs 0x1CB 0x1DB, .pairs 0x1DE 0x1EE,
  .one 0x1F1 0x1F3, .pairs 0x1F2 0x1F4, .one 0x1F6 0x195, .one 0x1F7 0x1BF, .pairs 0x1F8 0x21E,
  .one 0x220 0x19E, .pairs 0x222 0x232, .one 0x23A 0x2C65, .pairs 0x23B 0x23B, .one 0x23D 0x19A,
  .one 0x23E 0x2C66, .pairs 0x241 0x241, .one 0x243 0x180, .one 0x244 0x289, .one 0x245 0x28C,
  .pairs 0x246 0x24E, .pairs 0x370 0x372, .pairs 0x376 0x376, .one 0x37F 0x3F3, .one 0x386 0x3AC,
  ⟨0x388, 0x38A, 1, 0x3AD⟩, .one 0x38C 0x3CC, ⟨0x38E, 0x38F, 1, 0x3CD⟩, ⟨0x391, 0x3A1, 1, 0x3B1⟩,
  ⟨0x3A3, 0x3AB, 1, 0x3C3⟩, .one 0x3CF 0x3D7, .pairs 0x3D8 0x3EE, .one 0x3F4 0x3B8,
  .pairs 0x3F7 0x3F7, .one 0x3F9 0x3F2, .pairs 0x3FA 0x3FA, ⟨0x3FD, 0x3FF, 1, 0x37B⟩,
  ⟨0x400, 0x40F, 1, 0x450⟩, ⟨0x410, 0x42F, 1, 0x430⟩, .pairs 0x460 0x480, .pairs 0x48A 0x4BE,
  .one 0x4C0 0x4CF, .pairs 0x4C1 0x4CD, .pairs 0x4D0 0x52E, ⟨0x531, 0x556, 1, 0x561⟩,
  ⟨0x10A0, 0x10C5, 1, 0x2D00⟩, .one 0x10C7 0x2D27, .one 0x10CD 0x2D2D, ⟨0x13A0, 0x13EF, 1, 0xAB70⟩,
  ⟨0x13F0, 0x13F5, 1, 0x13F8⟩, ⟨0x1C90, 0x1CBA, 1, 0x10D0⟩, ⟨0x1CBD, 0x1CBF, 1, 0x10FD⟩,
  .pairs 0x1E00 0x1E94, .one 0x1E9E 0xDF, .pairs 0x1EA0 0x1EFE, ⟨0x1F08, 0x1F0F, 1, 0x1F00⟩,
  ⟨0x1F18, 0x1F1D, 1, 0x1F10⟩, ⟨0x1F28, 0x1F2F, 1, 0x1F20⟩, ⟨0x1F38, 0x1F3F, 1, 0x1F30⟩,
  ⟨0x1F48, 0x1F4D, 1, 0x1F40⟩, ⟨0x1F59, 0x1F5F, 2, 0x1F51⟩, ⟨0x1F68, 0x1F6F, 1, 0x1F60⟩,
  ⟨0x1F88, 0x1F8F, 1, 0x1F80⟩, ⟨0x1F98, 0x1F9F, 1, 0x1F90⟩, ⟨0x1FA8, 0x1FAF, 1, 0x1FA0⟩,
  ⟨0x1FB8, 0x1FB9, 1, 0x1FB0⟩, ⟨0x1FBA, 0x1FBB, 1, 0x1F70⟩, .one 0x1FBC 0x1FB3,
  ⟨0x1FC8, 0x1FCB, 1, 0x1F72⟩, .one 0x1FCC 0x1FC3, ⟨0x1FD8, 0x1FD9, 1, 0x1FD0⟩,
  ⟨0x1FDA, 0x1FDB, 1, 0x1F76⟩, ⟨0x1FE8, 0x1FE9, 1, 0x1FE0⟩, ⟨0x1FEA, 0x1FEB, 1, 0x1F7A⟩,
  .one 0x1FEC 0x1FE5, ⟨0x1FF8, 0x1FF9, 1, 0x1F78⟩, ⟨0x1FFA, 0x1FFB, 1, 0x1F7C⟩, .one 0x1FFC 0x1FF3,
  .one 0x2126 0x3C9, .one 0x212A 0x6B, .one 0x212B 0xE5, .one 0x2132 0x214E,
  ⟨0x2160, 0x216F, 1, 0x2170⟩, .pairs 0x2183 0x2183, ⟨0x24B6, 0x24CF, 1, 0x24D0⟩,
  ⟨0x2C00, 0x2C2F, 1, 0x2C30⟩, .pairs 0x2C60 0x2C60, .one 0x2C62 0x26B, .one 0x2C63 0x1D7D,
  .one 0x2C64 0x27D, .pairs 0x2C67 0x2C6B, .one 0x2C6D 0x251, .one 0x2C6E 0x271, .one 0x2C6F 0x250,
  .one 0x2C70 0x252, .pairs 0x2C72 0x2C72, .pairs 0x2C75 0x2C75, ⟨0x2C7E, 0x2C7F, 1, 0x23F⟩,
  .pairs 0x2C80 0x2CE2, .pairs 0x2CEB 0x2CED, .pairs 0x2CF2 0x2CF2, .pairs 0xA640 0xA66C,
  .pairs 0xA680 0xA69A, .pairs 0xA722 0xA72E, .pairs 0xA732 0xA76E, .pairs 0xA779 0xA77B,
  .one 0xA77D 0x1D79, .pairs 0xA77E 0xA786, .pairs 0xA78B 0xA78B, .one 0xA78D 0x265,
  .pairs 0xA790 0xA792, .pairs 0xA796 0xA7A8, .one 0xA7AA 0x266, .one 0xA7AB 0x25C,
  .one 0xA7AC 0x261, .one 0xA7AD 0x26C, .one 0xA7AE 0x26A, .one 0xA7B0 0x29E, .one 0xA7B1 0x287,
  .one 0xA7B2 0x29D, .one 0xA7B3 0xAB53, .pairs 0xA7B4 0xA7C2, .one 0xA7C4 0xA794,
  .one 0xA7C5 0x282, .one 0xA7C6 0x1D8E, .pairs 0xA7C7 0xA7C9, .pairs 0xA7D0 0xA7D0,
  .pairs 0xA7D6 0xA7D8, .pairs 0xA7F5 0xA7F5, ⟨0xFF21, 0xFF3A, 1, 0xFF41⟩,
  ⟨0x10400, 0x10427, 1, 0x10428⟩, ⟨0x104B0, 0x104D3, 1, 0x104D8⟩, ⟨0x10570, 0x1057A, 1, 0x10597⟩,
  ⟨0x1057C, 0x1058A, 1, 0x105A3⟩, ⟨0x1058C, 0x10592, 1, 0x105B3⟩, ⟨0x10594, 0x10595, 1, 0x105BB⟩,
  ⟨0x10C80, 0x10CB2, 1, 0x10CC0⟩, ⟨0x118A0, 0x118BF, 1, 0x118C0⟩, ⟨0x16E40, 0x16E5F, 1, 0x16E60⟩,
  ⟨0x1E900, 0x1E921, 1, 0x1E922⟩]

/-- Letters beyond ASCII that are not the simple lower case of their upper case. -/
def loneUpperRuns : List CaseRun := [
  .one 0xB5 0x39C, .one 0xDF 0xDF, .one 0x131 0x49, .one 0x17F 0x53, .one 0x1C5 0x1C4,
  .one 0x1C8 0x1C7, .one 0x1CB 0x1CA, .one 0x1F2 0x1F1, .one 0x345 0x399, .one 0x3C2 0x3A3,
  .one 0x3D0 0x392, .one 0x3D1 0x398, .one 0x3D5 0x3A6, .one 0x3D6 0x3A0, .one 0x3F0 0x39A,
  .one 0x3F1 0x3A1, .one 0x3F5 0x395, .one 0x1C80 0x412, .one 0x1C81 0x414, .one 0x1C82 0x41E,
  ⟨0x1C83, 0x1C84, 1, 0x421⟩, .one 0x1C85 0x422, .one 0x1C86 0x42A, .one 0x1C87 0x462,
  .one 0x1C88 0xA64A, .one 0x1E9B 0x1E60, .one 0x1FBE 0x399]

/-- Letters beyond ASCII with a simple upper case of their own. Most are the lower case of that
letter; the exceptions come first. -/
def upperRuns : List CaseRun := loneUpperRuns ++ lowerRuns.map CaseRun.inverse

def upperChar (c : Char) : Char :=
  if c.toNat < 0x80 then c.toUpper else CaseRun.apply upperRuns c

def lowerChar (c : Char) : Char :=
  if c.toNat < 0x80 then c.toLower else CaseRun.apply lowerRuns c

/-- The simple case folding of a character: the lower case of its upper case. The i without a dot
and the capital I with one are like no other letter. -/
def foldChar (c : Char) : Char :=
  if c = 'ı' then c
  else
    let raised := upperChar c
    if raised = 'İ' then raised else lowerChar raised

/-- A text in upper case; a byte outside every valid character becomes the replacement
character. -/
def upper (t : Text) : Text := ofChars ((chars t).map upperChar)

def lower (t : Text) : Text := ofChars ((chars t).map lowerChar)

/-- Whether two texts differ in letter case only. -/
def sameFold (s t : Text) : Bool := (chars s).map foldChar == (chars t).map foldChar

end PrgScript.Text
