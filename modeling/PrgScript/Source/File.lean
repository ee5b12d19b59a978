import PrgScript.Source.Path
import PrgScript.Source.Span
import PrgScript.Text.Digest
import PrgScript.Text.Normal

/-!
# Script files

A file holds the content of one script and resolves byte offsets to lines and columns
through the index of its line feeds. A script read from disk is tidied first: a byte
order mark is dropped, line ends become line feeds, and the text is brought into
composed normal form. The flags say what was done.
-/

namespace PrgScript

/-- One script: its number in its file set, its path, its content, and what is known about its
origin. -/
structure File where
  id : Nat
  path : Text
  content : Text
  flags : UInt8
deriving DecidableEq

namespace File

/-- The script did not come from disk. -/
def virtualFlag : UInt8 := 1

/-- A byte order mark was dropped. -/
def markFlag : UInt8 := 2

/-- Line ends were folded. -/
def lineEndFlag : UInt8 := 4

/-- The text was brought into composed normal form. -/
def normalFlag : UInt8 := 8

/-- The offsets of the line feeds in a text that starts at `offset`. -/
def lineFeedsFrom (offset : Nat) : Text → List Nat
  | [] => []
  | b :: t =>
    if b = Text.newline then offset :: lineFeedsFrom (offset + 1) t
    else lineFeedsFrom (offset + 1) t

def lineFeeds (file : File) : Array Nat := (lineFeedsFrom 0 file.content).toArray

def hash (file : File) : Text := Text.sha256 file.content

/-- The number of entries of an increasing index that lie before an offset, found by halving the
range between `low` and `high`. -/
def entriesBefore (index : Array Nat) (offset low high : Nat) (h : high ≤ index.size) : Nat :=
  if hlt : low < high then
    let middle := (low + high) / 2
    have : middle < index.size := by omega
    if index[middle] < offset then entriesBefore index offset (middle + 1) high h
    else entriesBefore index offset low middle (by omega)
  else low
termination_by high - low

/-- The line that holds an offset, and the offset where that line starts. -/
def lineStart (index : Array Nat) (offset : Nat) : Nat × Nat :=
  match entriesBefore index offset 0 index.size (Nat.le_refl _) with
  | 0 => (1, 0)
  | n + 1 => (n + 2, (index[n]?).elim 0 (· + 1))

/-- The line and column of an offset; one past the end stands for the end. -/
def lineCol (file : File) (offset : Nat) : LineCol :=
  let offset := min offset file.content.length
  let (line, start) := lineStart file.lineFeeds offset
  ⟨line, (Text.chars ((file.content.drop start).take (offset - start))).length + 1⟩

/-- The line with a number, counted from one, without its line end; nothing if there is no such
line. -/
def line (file : File) (number : Nat) : Text :=
  let index := file.lineFeeds
  if number = 0 ∨ index.size + 1 < number then []
  else
    let start := if number = 1 then 0 else (index[number - 2]?).elim 0 (· + 1)
    let stop := (index[number - 1]?).getD file.content.length
    Text.dropEnding [Text.carriageReturn] ((file.content.drop start).take (stop - start))

/-- Replaces every carriage return and line feed pair by a line feed. -/
def foldLineEnds : Text → Text
  | [] => []
  | 13 :: 10 :: t => 10 :: foldLineEnds t
  | b :: t => b :: foldLineEnds t

def byteOrderMark : Text := [0xEF, 0xBB, 0xBF]

def dropMark (t : Text) : Text := if byteOrderMark.isPrefixOf t then t.drop 3 else t

/-- The content of a script read from disk, tidied, and the flags that say what was done. -/
def tidy (bytes : Text) : Text × UInt8 :=
  let unmarked := dropMark bytes
  let folded := foldLineEnds unmarked
  let flag (changed : Bool) (bit : UInt8) : UInt8 := if changed then bit else 0
  let flags := flag (bytes.length != unmarked.length) markFlag |||
    flag (unmarked.length != folded.length) lineEndFlag
  if Text.isNormal folded then (folded, flags) else (Text.normal folded, flags ||| normalFlag)

end File

end PrgScript
