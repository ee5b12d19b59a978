import PrgScript.Text.Composite

/-!
# Taking characters apart

What the composed normal form has to know of a code point: its combining class, the
parts it stands for, whether it can join the character before it, and how many marks
it begins and ends with. Hangul syllables are computed, all else is looked up.

A code point is *attached* if it has a combining class or can join what stands before
it. Some attached code points have no class: the vowels of several Indic scripts and
the inner letters of Hangul.
-/

namespace PrgScript.Text

def combiningClass (n : Nat) : Nat :=
  if n < 0x300 then 0
  else
    match combiningSets.find? fun (_, set) => set.contains n with
    | some (cls, _) => cls
    | none => 0

/-- The first Hangul syllable and the first of each kind of letter, with their counts. -/
structure Hangul where
  syllable : Nat := 0xAC00
  lead : Nat := 0x1100
  vowel : Nat := 0x1161
  tail : Nat := 0x11A7
  leads : Nat := 19
  vowels : Nat := 21
  tails : Nat := 28

def hangul : Hangul := {}

def hangulParts? (n : Nat) : Option (List Nat) :=
  let h := hangul
  if h.syllable ≤ n ∧ n < h.syllable + h.leads * h.vowels * h.tails then
    let i := n - h.syllable
    let base := [h.lead + i / (h.vowels * h.tails), h.vowel + i / h.tails % h.vowels]
    some (if i % h.tails = 0 then base else base ++ [h.tail + i % h.tails])
  else none

/-- The Hangul syllable of a leading letter and a vowel, or of a syllable without a tail and a
tail. -/
def hangulWhole? (first second : Nat) : Option Nat :=
  let h := hangul
  if h.lead ≤ first ∧ first < h.lead + h.leads ∧ h.vowel ≤ second ∧ second < h.vowel + h.vowels then
    some (h.syllable + ((first - h.lead) * h.vowels + (second - h.vowel)) * h.tails)
  else if h.syllable ≤ first ∧ first < h.syllable + h.leads * h.vowels * h.tails ∧
      (first - h.syllable) % h.tails = 0 ∧ h.tail < second ∧ second < h.tail + h.tails then
    some (first + (second - h.tail))
  else none

def isHangulLetter (n : Nat) : Bool := 0x1100 ≤ n && n < 0x1200

/-- The parts of a code point that is taken apart and never put together again. -/
def lostParts? (n : Nat) : Option (List Nat) :=
  if n < 0x340 then none
  else
    match singletons.find? (·.1 == n) with
    | some (_, other) => some [other]
    | none => (excludedComposites.find? (·.1 == n)).map fun (_, first, second) => [first, second]

/-- One step of canonical decomposition. -/
def partsOnce? (n : Nat) : Option (List Nat) :=
  if n < 0xC0 then none
  else
    match composites.find? (·.1 == n) with
    | some (_, first, second) => some [first, second]
    | none => (lostParts? n).or (hangulParts? n)

/-- The full canonical decomposition of a code point, at most `depth` steps deep. -/
def expand : Nat → Nat → List Nat
  | 0, n => [n]
  | depth + 1, n =>
    match partsOnce? n with
    | some parts => parts.flatMap (expand depth)
    | none => [n]

/-- The full canonical decomposition of a code point. No composite is more than four steps deep. -/
def parts (n : Nat) : List Nat := expand 4 n

def joinsBack (n : Nat) : Bool :=
  0x300 ≤ n && (composites.any (·.2.2 == n) || (0x1161 ≤ n && n < 0x1176) ||
    (0x11A8 ≤ n && n < 0x11C3))

def isAttached (n : Nat) : Bool := combiningClass n ≠ 0 || joinsBack n

/-- The number of attached code points that a code point begins with. -/
def leadingMarks (n : Nat) : Nat :=
  if n < 0x300 then 0
  else if disguisedSet.contains n then 1
  else ((parts n).takeWhile isAttached).length

/-- The number of marks that the compatible form of a simple character ends with. -/
def hiddenMarks (n : Nat) : Nat :=
  match trailingSets.find? fun (_, set) => set.contains n with
  | some (count, _) => count
  | none => 0

/-- The number of attached code points that a code point ends with, those of its compatible form
included. -/
def trailingMarks (n : Nat) : Nat :=
  if n < 0xA0 then 0
  else
    let backward := (parts n).reverse
    let marks := (backward.takeWhile isAttached).length
    marks + ((backward.drop marks).head?.map hiddenMarks).getD 0

/-- Whether a code point stays as it is wherever it stands: it is not taken apart for good, and it
cannot join what stands before it. -/
def isSettled (n : Nat) : Bool := (lostParts? n).isNone && !joinsBack n

/-- The composite of two code points. Pairs are looked up by the low sixteen bits of their code
points, so a code point beyond the first plane joins as the one that shares those bits does. -/
def whole? (first second : Nat) : Option Nat :=
  (composites.find? fun (_, a, b) =>
    a % 0x10000 == first % 0x10000 && b % 0x10000 == second % 0x10000).map (·.1)

end PrgScript.Text
