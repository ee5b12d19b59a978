import PrgScript.Text.CharSet
import PrgScript.Text.Piece

/-!
# Grapheme clusters

What a reader takes for one character may be written with several: a letter and its
accents, the parts of a Hangul syllable, two regional indicators, pictographs joined
by a joiner. Cutting a text into such clusters follows the extended grapheme clusters
of Unicode 15. The same cutting applies to characters, to pieces of a text, and to
whatever else has the roles of characters.
-/

namespace PrgScript.Text

variable {α : Type}

/-- The role of a character in the cutting into clusters. -/
inductive GraphemeRole where
  | carriageReturn | lineFeed | control | extend | joiner | regional | prepend | spacing
  | leading | vowel | trailing | leadingVowel | fullSyllable | pictograph | other
deriving DecidableEq, Repr

def controlSet : CharSet := [
  0,10,1,2,1,18,95,33,13,1,1390,1,4593,1,2044,1,2,2,24,7,49,16,56975,1,240,12,13364,16,34912,4,5327,
  8,798341,32,96,128,240,3600]

/-- The marks that extend a cluster. -/
def extendSet : CharSet := [
  768,112,275,7,263,45,1,1,1,2,1,2,1,1,72,11,48,21,16,1,101,7,2,6,2,2,1,4,35,1,30,27,91,11,58,9,9,1,
  24,4,1,9,1,3,1,5,43,3,60,8,42,24,1,32,55,1,1,1,4,8,4,1,3,7,10,2,29,1,58,1,1,1,2,4,8,1,9,1,10,2,26,
  1,2,2,57,1,4,2,4,2,2,3,3,1,30,2,3,1,11,2,57,1,4,5,1,2,4,1,20,2,22,6,1,1,58,1,1,2,1,4,8,1,7,3,10,2,
  30,1,59,1,1,1,12,1,9,1,40,1,3,1,55,1,1,3,5,3,1,4,7,2,11,2,29,1,58,1,2,1,2,1,3,1,5,2,7,2,11,2,28,2,
  57,2,1,1,2,4,8,1,9,1,10,2,29,1,72,1,4,1,2,3,1,1,8,1,81,1,2,7,12,8,98,1,2,9,11,7,73,2,27,1,1,1,1,1,
  55,14,1,5,1,2,5,11,1,36,9,1,102,4,1,6,1,2,2,2,25,2,4,3,16,4,13,1,2,2,6,1,15,1,703,3,946,3,29,2,30,
  2,30,2,64,2,1,7,8,1,2,11,9,1,45,3,1,1,117,2,34,1,118,3,4,2,9,1,6,3,219,2,2,1,58,1,1,7,1,1,1,1,2,8,
  6,10,2,1,48,31,49,4,48,7,1,1,5,1,40,9,12,2,32,4,2,2,1,3,56,1,1,2,3,1,1,3,58,8,2,2,152,3,1,13,1,7,
  4,1,6,1,3,2,198,64,524,1,195,33,3070,3,141,1,96,32,554,6,105,2,30164,4,1,10,32,2,80,2,272,1,3,1,4,
  1,25,2,5,1,151,2,26,18,13,1,38,8,25,11,46,3,48,1,2,4,2,2,39,1,67,6,2,2,2,2,12,1,8,1,47,1,51,1,1,3,
  2,2,5,2,1,1,42,2,8,1,238,1,2,1,4,1,20272,1,737,16,16,16,366,2,605,1,226,1,149,5,1670,3,1,2,5,4,40,
  3,4,1,165,2,573,4,387,2,80,3,70,11,49,4,123,1,54,15,41,1,2,2,10,3,49,4,2,2,7,1,61,3,36,5,1,8,62,1,
  12,2,52,9,10,4,2,1,95,3,2,1,1,2,6,1,2,1,157,1,3,8,21,2,57,2,1,1,1,1,22,1,14,7,3,5,195,8,2,3,1,1,
  23,1,81,1,2,6,1,1,2,1,1,2,1,2,235,1,2,4,6,2,1,2,27,2,85,8,2,1,1,2,106,1,1,1,2,6,1,1,101,3,2,4,1,5,
  259,9,1,2,245,1,10,2,1,1,4,1,144,4,2,2,4,1,32,10,40,6,2,4,8,1,9,6,2,3,46,13,1,2,406,7,1,6,1,1,82,
  22,2,7,1,2,1,2,122,6,3,1,1,2,1,7,1,1,72,2,3,1,1,1,347,2,11,2,52,5,5,1,1,1,5373,1,6,15,13978,5,59,
  7,1048,1,63,4,81,1,19640,2,4705,46,2,23,542,1,1,3,4,5,8,8,2,7,30,4,148,3,1979,55,4,50,8,1,14,1,22,
  5,1,15,1360,7,1,17,2,7,1,2,1,5,100,1,160,7,375,1,61,4,508,4,992,7,109,7,2736,5,789536,96,128,240]

/-- The characters that stand before a cluster. -/
def prependSet : CharSet := [
  1536,6,215,1,49,1,384,2,80,1,1131,1,66414,1,15,1,244,2,1915,1,1,1,248,1,73,6,700,1,443,1]

def spacingSet : CharSet := [
  2307,1,55,1,2,3,8,4,1,2,50,2,59,2,6,2,2,2,54,1,58,3,66,1,58,3,8,1,1,2,53,2,60,1,6,2,2,2,114,1,1,2,
  3,3,1,3,52,3,61,4,61,2,58,1,1,2,1,2,2,2,1,2,39,1,14,2,59,2,5,3,1,3,53,2,76,2,6,7,19,2,63,1,127,1,
  138,2,63,1,177,1,9,2,25,2,44,1,1680,1,30,1,129,1,7,8,1,2,346,4,2,3,4,2,1,6,224,2,58,1,1,1,21,6,
  145,1,54,1,1,5,1,2,61,1,30,1,4,2,2,1,60,1,2,3,1,1,3,2,48,8,8,2,171,1,21,1,35627,2,2,1,88,2,50,16,
  142,2,47,1,48,2,4,2,2,3,110,2,2,2,24,1,157,1,2,2,5,1,237,2,1,2,1,2,1,1,25619,1,1,1,127,1,45,3,4,2,
  115,1,24,2,59,1,48,3,9,2,13,1,93,3,3,2,1,1,170,3,31,2,59,1,1,4,2,2,2,3,20,2,209,3,8,2,3,1,107,2,6,
  1,1,2,1,1,2,1,238,2,6,4,2,1,113,3,8,2,1,1,109,1,1,2,6,1,111,1,261,3,9,1,248,5,1,2,4,1,2,1,1,1,142,
  3,8,4,4,1,84,1,29,2,62,1,407,1,14,1,106,1,7,1,2,1,213,5,4,2,1,1,350,2,12,1,48,2,8,2,1,1,20495,55,
  104,2,24948,1,6,1]

def pictographSet : CharSet := [
  169,1,4,1,8077,1,12,1,216,1,22,1,90,6,15,2,367,2,12,1,95,1,70,1,25,11,4,3,199,1,231,2,10,1,9,1,58,
  4,1,6,1,12,1,114,10,118,2,11,1,1,1,1,6,1,3,1,6,1,10,2,15,1,2,1,4,1,1,1,4,3,1,1,11,5,45,3,9,1,14,1,
  14,1,372,2,463,3,19,2,51,1,4,1,1242,1,12,1,601,1,1,1,114022,256,13,3,31,1,60,6,12,2,14,1,2,10,18,
  57,27,15,10,1,20,1,2,9,1,4,9,434,5,318,8,266,48,128,116,12,85,43,12,4,56,8,10,6,40,8,30,82,12,47,
  1,10,1,441,256,1022]

def graphemeRole (c : Char) : GraphemeRole :=
  let n := c.toNat
  if n = 13 then .carriageReturn
  else if n = 10 then .lineFeed
  else if controlSet.contains n then .control
  else if n < 0x80 then .other
  else if n = 0x200D then .joiner
  else if 0x1F1E6 ≤ n ∧ n ≤ 0x1F1FF then .regional
  else if (0x1100 ≤ n ∧ n ≤ 0x115F) ∨ (0xA960 ≤ n ∧ n ≤ 0xA97C) then .leading
  else if (0x1160 ≤ n ∧ n ≤ 0x11A7) ∨ (0xD7B0 ≤ n ∧ n ≤ 0xD7C6) then .vowel
  else if (0x11A8 ≤ n ∧ n ≤ 0x11FF) ∨ (0xD7CB ≤ n ∧ n ≤ 0xD7FB) then .trailing
  else if 0xAC00 ≤ n ∧ n ≤ 0xD7A3 then
    if (n - 0xAC00) % 28 = 0 then .leadingVowel else .fullSyllable
  else if extendSet.contains n then .extend
  else if spacingSet.contains n then .spacing
  else if prependSet.contains n then .prepend
  else if pictographSet.contains n then .pictograph
  else .other

/-- What must be known of a cluster to tell whether it goes on: the role of its last character,
whether it ends with an odd number of regional indicators, and whether it ends with a pictograph
and marks, or with those and a joiner. -/
structure ClusterEnd where
  last : GraphemeRole
  oddRegional : Bool := false
  afterPictograph : Bool := false
  joinsPictograph : Bool := false

namespace ClusterEnd

def start (role : GraphemeRole) : ClusterEnd where
  last := role
  oddRegional := role == .regional
  afterPictograph := role == .pictograph

def push (e : ClusterEnd) (role : GraphemeRole) : ClusterEnd where
  last := role
  oddRegional := role == .regional && !e.oddRegional
  afterPictograph := role == .pictograph || (role == .extend && e.afterPictograph)
  joinsPictograph := role == .joiner && e.afterPictograph

/-- Whether a role ends every cluster. -/
def isBreaking (role : GraphemeRole) : Bool :=
  role == .control || role == .carriageReturn || role == .lineFeed

def joins (e : ClusterEnd) (role : GraphemeRole) : Bool :=
  if e.last = .carriageReturn ∧ role = .lineFeed then true
  else if isBreaking e.last || isBreaking role then false
  else
    match e.last, role with
    | _, .extend | _, .joiner | _, .spacing | .prepend, _ => true
    | .leading, .leading | .leading, .vowel | .leading, .leadingVowel | .leading, .fullSyllable
    | .leadingVowel, .vowel | .leadingVowel, .trailing | .vowel, .vowel | .vowel, .trailing
    | .fullSyllable, .trailing | .trailing, .trailing => true
    | .joiner, .pictograph => e.joinsPictograph
    | .regional, .regional => e.oddRegional
    | _, _ => false

end ClusterEnd

/-- The elements that go on with a cluster, given its end so far. An element without a role goes on
with every cluster. -/
def takeCluster (role? : α → Option GraphemeRole) (e : ClusterEnd) : List α → List α
  | [] => []
  | a :: as =>
    match role? a with
    | none => a :: takeCluster role? e as
    | some role => if e.joins role then a :: takeCluster role? (e.push role) as else []

def firstCluster (role? : α → Option GraphemeRole) : List α → List α
  | [] => []
  | a :: as => a :: takeCluster role? (.start ((role? a).getD .other)) as

/-- The clusters of the elements after a cluster begun, whose elements are given from the last
to the first. -/
def clustersFrom (role? : α → Option GraphemeRole) (begun : List α) (e : ClusterEnd) :
    List α → List (List α)
  | [] => [begun.reverse]
  | a :: as =>
    match role? a with
    | none => clustersFrom role? (a :: begun) e as
    | some role =>
      if e.joins role then clustersFrom role? (a :: begun) (e.push role) as
      else begun.reverse :: clustersFrom role? [a] (.start role) as

def clustersBy (role? : α → Option GraphemeRole) : List α → List (List α)
  | [] => []
  | a :: as => clustersFrom role? [a] (.start ((role? a).getD .other)) as

/-- The grapheme clusters of a sequence of characters. -/
def clusters (cs : List Char) : List (List Char) := clustersBy (fun c => some (graphemeRole c)) cs

/-- The role of a piece of a text. Malformed bytes are like letters, and a cut-off character is
part of the last cluster. -/
def Piece.role? : Piece → Option GraphemeRole
  | .char n => some (graphemeRole (Char.ofNat n))
  | .stray _ => some .other
  | .cut _ => none

/-- The grapheme clusters of a text, which together are the text. -/
def textClusters (t : Text) : List Text :=
  (clustersBy Piece.role? (pieces t)).map fun cluster => cluster.flatMap Piece.bytes

end PrgScript.Text
