import PrgScript.Text.Decomposition
import PrgScript.Text.Piece

/-!
# Composed normal form

Scripts read from disk are brought into the composed normal form of Unicode (NFC):
composites are taken apart, marks are sorted by combining class, and what can be put
together is put together again.

The work goes by segments. A segment is a character and the attached ones after it;
it is sorted and put together on its own. Stretches that are settled as they stand are
passed over. A segment takes at most thirty attached characters: then a joiner is
written and a new segment begins, so that what has to be sorted at a time stays small.
Malformed bytes take no part: they stand like a character with which nothing joins,
and a character cut off at the end stays as it is.
-/

namespace PrgScript.Text

/-- The most attached characters in a segment. -/
def markLimit : Nat := 30

/-- The number of pieces at the front that are settled as they stand. A stretch ends before the
segment in which something is left to do: marks out of order or too many of them, or a character
that may change. `count` and `cls` are the number of attached characters so far and the class of
the last one, `seen` the number of pieces read and `start` those before the current segment. -/
def settledFrom (count cls seen start : Nat) : List Piece → Nat
  | [] => seen
  | p :: ps =>
    if p.isCut then seen + 1
    else
      let lead := leadingMarks p.code
      if markLimit < count + lead then start
      else if lead = 0 then
        if isSettled p.code then
          settledFrom (trailingMarks p.code) (combiningClass p.code) (seen + 1) seen ps
        else seen
      else if combiningClass p.code < cls || !isSettled p.code then start
      else settledFrom (count + lead) (combiningClass p.code) (seen + 1) start ps

/-- The number of pieces at the front that are settled as they stand. -/
def settled (ps : List Piece) : Nat := settledFrom 0 0 0 0 ps

/-- The attached pieces at the front, as many as the segment can still take with `count` of them
in it; whether they were too many; and the pieces after them. -/
def attached (count : Nat) : List Piece → List Piece × Bool × List Piece
  | [] => ([], false, [])
  | p :: ps =>
    let lead := leadingMarks p.code
    if p.isCut || lead == 0 then ([], false, p :: ps)
    else if markLimit < count + lead then ([], true, p :: ps)
    else
      let (mine, tooMany, rest) := attached (count + lead) ps
      (p :: mine, tooMany, rest)

/-- What follows the attached pieces is no longer than the whole. -/
theorem length_attached_le (count : Nat) (ps : List Piece) :
    (attached count ps).2.2.length ≤ ps.length := by
  induction ps generalizing count with
  | nil => simp [attached]
  | cons p ps ih =>
    simp only [attached]
    split
    · simp
    · split
      · simp
      · exact Nat.le_succ_of_le (ih _)

/-- A character of a segment while it is put together: its piece, its combining class, and whether
it may join what stands before it. -/
structure Slot where
  piece : Piece
  cls : Nat := 0
  joins : Bool := false
deriving DecidableEq, Repr

namespace Slot

def ofCode (n : Nat) : Slot := ⟨.char n, combiningClass n, joinsBack n⟩

/-- The slots of a piece: of the parts of its character. The letters of a syllable lose what they
could join, since they are put together as Hangul letters. -/
def ofPiece : Piece → List Slot
  | .char n =>
    match hangulParts? n with
    | some letters => letters.map fun l => ⟨.char l, 0, false⟩
    | none => (parts n).map ofCode
  | p => [⟨p, 0, false⟩]

/-- Puts a slot at the end of a sequence that is given from its last to its first; a mark moves
before marks of higher class. -/
def insert (s : Slot) : List Slot → List Slot
  | [] => [s]
  | t :: ts => if 0 < s.cls ∧ s.cls < t.cls then t :: insert s ts else s :: t :: ts

/-- The slots of a sequence of pieces, the marks in order. -/
def sorted (ps : List Piece) : List Slot :=
  ((ps.flatMap ofPiece).foldl (fun done s => insert s done) []).reverse

end Slot

/-- A segment half put together: the base that marks may join, what stands before it and what
after it, each from the last to the first. -/
structure Joining where
  before : List Slot := []
  base : Slot
  after : List Slot := []

namespace Joining

def keep (j : Joining) (s : Slot) : Joining := { j with after := s :: j.after }

/-- Moves the base to the last slot if that has no class. -/
def rebase (j : Joining) : Joining :=
  match j.after with
  | [] => j
  | s :: rest => if s.cls = 0 then ⟨rest ++ j.base :: j.before, s, []⟩ else j

/-- Whether nothing stands between the base and a mark of the given class. -/
def isFree (j : Joining) (cls : Nat) : Bool :=
  match j.after with
  | [] => true
  | s :: _ => s.cls < cls

/-- Lets a slot join the base under a rule of composition, or keeps it. -/
def join (rule : Nat → Nat → Option Nat) (j : Joining) (s : Slot) : Joining :=
  let j := j.rebase
  match if j.isFree s.cls then rule j.base.piece.code s.piece.code else none with
  | some n => { j with base := ⟨.char n, 0, false⟩ }
  | none => j.keep s

/-- Takes in the slots one by one. From the first Hangul letter on, only Hangul is put together;
before it, the base moves only when a slot that may join comes up. -/
def takeAll (j : Joining) : List Slot → Joining
  | [] => j
  | s :: ss =>
    if isHangulLetter s.piece.code then (s :: ss).foldl (join hangulWhole?) j
    else if s.joins then takeAll (j.join whole? s) ss
    else takeAll (j.keep s) ss

def slots (j : Joining) : List Slot := (j.after ++ j.base :: j.before).reverse

end Joining

/-- The pieces of a sorted segment, put together. -/
def compose : List Slot → List Piece
  | [] => []
  | s :: ss => (({ base := s : Joining }.takeAll ss).slots).map (·.piece)

/-- The character that joins graphemes. It has no combining class, so marks are neither sorted nor
put together across it. -/
def graphemeJoiner : Nat := 0x34F

/-- The number of attached characters that a segment has after its first character. -/
def carriedMarks (n : Nat) : Nat := if leadingMarks n = 0 then trailingMarks n else leadingMarks n

/-- The composed normal form of pieces that begin with a segment that may change. -/
def composeSegments : List Piece → List Piece
  | [] => []
  | p :: ps =>
    let found := attached (carriedMarks p.code) ps
    let joiner := if found.2.1 then [Piece.char graphemeJoiner] else []
    let rest := found.2.2
    compose (Slot.sorted (p :: found.1)) ++ joiner ++ rest.take (settled rest) ++
      composeSegments (rest.drop (settled rest))
termination_by ps => ps.length
decreasing_by
  have := length_attached_le (carriedMarks p.code) ps
  simp only [List.length_drop, List.length_cons]
  omega

def composed (ps : List Piece) : List Piece :=
  ps.take (settled ps) ++ composeSegments (ps.drop (settled ps))

/-- The composed normal form of a text. -/
def normal (t : Text) : Text := (composed (pieces t)).flatMap Piece.bytes

def isNormal (t : Text) : Bool := t.all (· < 0x80) || normal t == t

end PrgScript.Text
