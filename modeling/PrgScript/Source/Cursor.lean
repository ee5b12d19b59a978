import PrgScript.Source.FileSet

/-!
# Reading a script character by character

A script is read as a sequence of glyphs. A glyph is one character together with the
bytes it was written with: a carriage return and line feed pair is one line feed, and
a byte outside every valid character is one replacement character. A cursor is a
position and the glyphs that are still ahead of it.
-/

namespace PrgScript

/-- A character of a script and the bytes it was written with. -/
structure Glyph where
  char : Char
  bytes : Text
deriving DecidableEq, Repr

namespace Glyph

/-- The glyphs of a text whose first `skip` bytes belong to a glyph already read. -/
def glyphsAfter : Nat → Text → List Glyph
  | _, [] => []
  | skip + 1, _ :: t => glyphsAfter skip t
  | 0, b :: t =>
    if b = Text.carriageReturn && t.head? == some Text.newline then
      ⟨'\n', [b, Text.newline]⟩ :: glyphsAfter 1 t
    else
      let (char, more) := Text.decode b t
      ⟨char, b :: t.take more⟩ :: glyphsAfter more t

def ofText (t : Text) : List Glyph := glyphsAfter 0 t

def text (gs : List Glyph) : Text := gs.flatMap bytes

end Glyph

def Pos.advance (p : Pos) (g : Glyph) : Pos :=
  if g.char = '\n' then ⟨p.offset + g.bytes.length, p.line + 1, 1⟩
  else ⟨p.offset + g.bytes.length, p.line, p.col + 1⟩

/-- A position in a script and the glyphs ahead of it. -/
structure Cursor where
  pos : Pos := {}
  rest : List Glyph
deriving DecidableEq

namespace Cursor

def ofText (t : Text) : Cursor := { rest := Glyph.ofText t }

def atEnd (c : Cursor) : Bool := c.rest.isEmpty

/-- The next character and the cursor behind it. -/
def next? (c : Cursor) : Option (Char × Cursor) :=
  match c.rest with
  | [] => none
  | g :: gs => some (g.char, ⟨c.pos.advance g, gs⟩)

def peek? (c : Cursor) : Option Char := c.rest.head?.map (·.char)

/-- The next two characters, as far as there are any. -/
def peekTwo (c : Cursor) : Option Char × Option Char :=
  (c.peek?, c.rest[1]?.map (·.char))

/-- The cursor behind the next character, if that has the given code. A number that is no
character's code is met nowhere. -/
def eat? (c : Cursor) (code : Int) : Option Cursor :=
  match c.next? with
  | some (found, c') => if found.toNat = code then some c' else none
  | none => none

/-- The cursor behind the next `n` glyphs. -/
def skip : Nat → Cursor → Cursor
  | 0, c => c
  | n + 1, c =>
    match c.rest with
    | [] => c
    | g :: gs => skip n ⟨c.pos.advance g, gs⟩

def atOffset (file : File) (offset : Nat) : Cursor :=
  let place := file.lineCol offset
  ⟨⟨offset, place.line, place.col⟩, Glyph.ofText (file.content.drop offset)⟩

/-- The number of bytes of the last glyph, given the bytes from the last to the first. -/
def lastGlyphWidth (before : Text) : Nat :=
  match before with
  | 10 :: 13 :: _ => 2
  | _ => Text.lastWidth before

/-- Goes back at most `n` glyphs over bytes given from the last to the first; returns the number
of glyphs and the number of bytes gone back. -/
def back : Nat → Text → Nat × Nat
  | 0, _ => (0, 0)
  | n + 1, before =>
    if before.isEmpty then (0, 0)
    else
      let width := lastGlyphWidth before
      let (glyphs, bytes) := back n (before.drop width)
      (glyphs + 1, bytes + width)

/-- Moves back over at most `n` glyphs; returns how many there were. The position is resolved
anew from the file's line feeds. -/
def rewind (file : File) (n : Nat) (c : Cursor) : Nat × Cursor :=
  let (glyphs, bytes) := back n (file.content.take c.pos.offset).reverse
  if glyphs = 0 then (0, c) else (glyphs, atOffset file (c.pos.offset - bytes))

def reset (file : File) (mark : Pos) : Cursor :=
  ⟨mark, Glyph.ofText (file.content.drop mark.offset)⟩

def spanFrom (file : File) (mark : Pos) (c : Cursor) : Span := ⟨file.id, mark.offset, c.pos.offset⟩

def textFrom (file : File) (mark : Pos) (c : Cursor) : Text :=
  (file.content.drop mark.offset).take (c.pos.offset - mark.offset)

@[simp] theorem skip_rest (n : Nat) (c : Cursor) : (c.skip n).rest = c.rest.drop n := by
  induction n generalizing c with
  | zero => rfl
  | succ n ih => cases c with | mk pos rest => cases rest <;> simp [skip, ih]

end Cursor

end PrgScript
