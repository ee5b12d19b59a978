import PrgScript.Text.Width

/-!
# Columns of a line with control sequences

A line that goes to a terminal may hold control sequences, which take no column: those
that begin with an escape and a bracket, strings for the device or for the system,
and single controls. They are told apart byte by byte. A byte that begins a multibyte
character ends whatever sequence it stands in, except the strings whose bytes are free,
and the cluster of characters from there on is measured as a whole.

Here a cluster is as wide as its first character and those after it that take columns of
their own. A pictograph is as wide as its presentation asks, and its joined parts add
nothing.
-/

namespace PrgScript.Text

/-- Where a terminal stands within a control sequence. -/
inductive ControlState where
  | ground | escape | escapeIntermediate
  | entry | parameter | intermediate
  | deviceEntry | deviceParameter | deviceIntermediate | deviceString
  | systemString | otherString
deriving DecidableEq, Repr

namespace ControlState

/-- A control that leaves a sequence as it is. -/
def isQuiet (b : UInt8) : Bool := b < 0x18 || b = 0x19 || (0x1C ≤ b && b < 0x20)

def within (first last b : UInt8) : Bool := first ≤ b && b ≤ last

/-- The state after a byte that has no meaning of its own in the present one. -/
def anywhere (b : UInt8) : ControlState :=
  if b = 0x1B then .escape
  else if b = 0x90 then .deviceEntry
  else if b = 0x98 || b = 0x9E || b = 0x9F then .otherString
  else if b = 0x9B then .entry
  else if b = 0x9D then .systemString
  else .ground

def afterEscape (b : UInt8) : ControlState :=
  if isQuiet b || b = 0x7F then .escape
  else if within 0x20 0x2F b then .escapeIntermediate
  else if b = 0x5B then .entry
  else if b = 0x5D then .systemString
  else if b = 0x50 then .deviceEntry
  else if b = 0x58 || b = 0x5E || b = 0x5F then .otherString
  else anywhere b

/-- Whether a byte ends a string with free bytes. -/
def endsString (b : UInt8) : Bool := b = 0x9C || b = 0x18 || b = 0x1A

def next : ControlState → UInt8 → ControlState
  | .ground, b => anywhere b
  | .escape, b => afterEscape b
  | .escapeIntermediate, b =>
    if isQuiet b || within 0x20 0x2F b || b = 0x7F then .escapeIntermediate else anywhere b
  | .entry, b =>
    if isQuiet b || b = 0x7F then .entry
    else if within 0x20 0x2F b then .intermediate
    else if within 0x30 0x3F b then .parameter
    else anywhere b
  | .parameter, b =>
    if isQuiet b || within 0x30 0x3F b || b = 0x7F then .parameter
    else if within 0x20 0x2F b then .intermediate
    else anywhere b
  | .intermediate, b =>
    if isQuiet b || within 0x20 0x2F b || b = 0x7F then .intermediate else anywhere b
  | .deviceEntry, b =>
    if within 0x08 0x0D b || b = 0x1B || within 0x40 0x7E b then .deviceString
    else if isQuiet b || b = 0x7F then .deviceEntry
    else if within 0x20 0x2F b then .deviceIntermediate
    else if within 0x30 0x3F b then .deviceParameter
    else anywhere b
  | .deviceParameter, b =>
    if isQuiet b || within 0x30 0x3F b || b = 0x7F then .deviceParameter
    else if within 0x20 0x2F b then .deviceIntermediate
    else if within 0x40 0x7E b then .deviceString
    else anywhere b
  | .deviceIntermediate, b =>
    if isQuiet b || within 0x20 0x2F b || b = 0x7F then .deviceIntermediate
    else if within 0x30 0x7E b then .deviceString
    else anywhere b
  | .deviceString, b =>
    if b = 0x1B then .escape else if endsString b then .ground else .deviceString
  | .systemString, b =>
    if b = 0x1B then .escape else if b = 0x07 || endsString b then .ground else .systemString
  | .otherString, b =>
    if isQuiet b || within 0x20 0x7F b then .otherString else anywhere b

/-- Whether a byte begins a multibyte character that is shown. -/
def beginsChar (s : ControlState) (b : UInt8) : Bool :=
  within 0xC2 0xF4 b && s != .deviceString && s != .systemString

def shows (s : ControlState) (b : UInt8) : Bool := s == .ground && within 0x20 0x7F b

end ControlState

/-- The pictographs that are shown as text in spite of their width. -/
def textPictographSet : CharSet := [12336, 1, 12, 1, 601, 1, 1, 1, 114536, 1, 52, 1, 40, 6]

/-- The characters that take two columns elsewhere but not on such a line. -/
def thinSet : CharSet := [12284, 4, 495, 1]

def roleColumns (role : GraphemeRole) (c : Char) : Nat :=
  let n := c.toNat
  let isWide := wideSet.contains n && !thinSet.contains n
  match role with
  | .control | .carriageReturn | .lineFeed | .extend | .joiner => 0
  | .regional => 2
  | .pictograph => if isWide && !textPictographSet.contains n then 2 else 1
  | _ => if n = 0x2E3A then 3 else if n = 0x2E3B then 4 else if isWide then 2 else 1

/-- The number of columns of a pictograph after what may choose its presentation. -/
def presented (width : Nat) : List Char → Nat
  | [] => width
  | c :: cs => presented (if c.toNat = 0xFE0E then 1 else if c.toNat = 0xFE0F then 2 else width) cs

/-- The number of columns of a cluster on a line with control sequences. -/
def lineClusterWidth : List Char → Nat
  | [] => 0
  | c :: cs =>
    let role := graphemeRole c
    let width := roleColumns role c
    match role with
    | .pictograph => presented width cs
    | .regional | .leading => width
    | _ => width + total (cs.map fun d => roleColumns (graphemeRole d) d)

/-- The number of columns of a line from a state on, its first `skip` bytes being measured
already. -/
def lineWidthFrom : Nat → ControlState → Text → Nat
  | _, _, [] => 0
  | skip + 1, s, _ :: t => lineWidthFrom skip s t
  | 0, s, b :: t =>
    if s.beginsChar b then
      let cluster := firstCluster (fun (c, _) => some (graphemeRole c)) (sizedChars (b :: t))
      lineClusterWidth (cluster.map (·.1)) +
        lineWidthFrom (total (cluster.map (·.2)) - 1) .ground t
    else (if s.shows b then 1 else 0) + lineWidthFrom 0 (s.next b) t

def lineWidth (t : Text) : Nat := lineWidthFrom 0 .ground t

end PrgScript.Text
