import PrgScript.Text.Utf8

/-!
# Pieces of a text

A text that need not be UTF-8 throughout is cut into pieces: characters, malformed
sequences of bytes, and at the end perhaps a character that is cut off. The lead byte
alone says how many bytes should follow, so a short rest of a text is taken for
cut off whatever its bytes are.
-/

namespace PrgScript.Text

/-- A piece of a text: a character, a malformed sequence of bytes, or the bytes of a character
that the end of the text cuts off. -/
inductive Piece where
  | char (code : Nat)
  | stray (bytes : Text)
  | cut (bytes : Text)
deriving DecidableEq, Repr

namespace Piece

def bytes : Piece → Text
  | .char n => ofChar (Char.ofNat n)
  | .stray t => t
  | .cut t => t

/-- The code point of a piece, the replacement character for bytes outside every character. -/
def code : Piece → Nat
  | .char n => n
  | _ => 0xFFFD

def isCut : Piece → Bool
  | .cut _ => true
  | _ => false

end Piece

/-- The number of bytes that should follow a byte. -/
def following (b : UInt8) : Nat :=
  if b < 0xC2 then 0 else if b < 0xE0 then 1 else if b < 0xF0 then 2 else if b < 0xF8 then 3 else 0

/-- The pieces of a text whose first `skip` bytes belong to a piece already read. A malformed
sequence takes the continuation bytes that its lead byte asks for. -/
def piecesAfter : Nat → Text → List Piece
  | _, [] => []
  | skip + 1, _ :: t => piecesAfter skip t
  | 0, b :: t =>
    let tail := t.take (following b)
    if tail.length < following b then [.cut (b :: t)]
    else if startsValid b t then
      .char (decode b t).1.toNat :: piecesAfter (decode b t).2 t
    else
      let mine := tail.takeWhile isContinuation
      .stray (b :: mine) :: piecesAfter mine.length t

def pieces (t : Text) : List Piece := piecesAfter 0 t

end PrgScript.Text
