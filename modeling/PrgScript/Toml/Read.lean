import PrgScript.Toml.Scalar

/-!
# Reading configuration documents

A document is read character by character into its items. Every reader returns what it
has read and the characters that are left, or nothing if the document is malformed.
-/

namespace PrgScript.Toml

def isBlank (c : Char) : Bool := c == ' ' || c == '\t'

def isLineEnd (c : Char) : Bool := c == '\n' || c == '\r'

def skipBlanks (cs : List Char) : List Char := cs.dropWhile isBlank

def skipLine (cs : List Char) : List Char := cs.dropWhile (!isLineEnd ·)

/-- The rest of a string in double quotes, after the first of them. -/
def readQuoted : Nat → List Char → Option (List Char × List Char)
  | 0, _ | _ + 1, [] => none
  | _ + 1, '"' :: rest => some ([], rest)
  | bound + 1, '\\' :: rest => do
    let (c, rest) ← unescape? rest
    let (cs, rest) ← readQuoted bound rest
    return (c :: cs, rest)
  | bound + 1, c :: rest =>
    if isLineEnd c then none
    else (readQuoted bound rest).map fun (cs, rest) => (c :: cs, rest)

/-- The rest of a string in single quotes, after the first of them. -/
def readLiteral (cs : List Char) : Option (List Char × List Char) :=
  match cs.dropWhile (fun c => c != '\'' && !isLineEnd c) with
  | '\'' :: rest => some (cs.takeWhile (· != '\''), rest)
  | _ => none

/-- The characters after a backslash at the end of a line, up to the next that is no blank; `none`
if there is no line end before it. -/
def skipLineBreak? (cs : List Char) : Option (List Char) :=
  let isGap (c : Char) : Bool := isBlank c || isLineEnd c
  if (cs.takeWhile isGap).any (· == '\n') then some (cs.dropWhile isGap) else none

/-- The rest of a string of several lines. It ends with three quotes, before which up to two more
belong to it, or three more right after an escaped backslash; `spare` is their number. Escapes are
known only inside double quotes. -/
def readLines (quote : Char) (spare : Nat) : Nat → List Char → Option (List Char × List Char)
  | 0, _ | _ + 1, [] => none
  | bound + 1, c :: rest =>
    if c = quote then
      let count := ((c :: rest).takeWhile (· == quote)).length
      let after := (c :: rest).drop count
      if 3 + spare < count then none
      else if 3 ≤ count then some (List.replicate (count - 3) quote, after)
      else
        (readLines quote 2 bound after).map fun (cs, rest) =>
          (List.replicate count quote ++ cs, rest)
    else if c = '\\' ∧ quote = '"' then
      match skipLineBreak? rest with
      | some rest => readLines quote 2 bound rest
      | none => do
        let (c, after) ← unescape? rest
        let (cs, rest) ← readLines quote (if rest.head? = some '\\' then 3 else 2) bound after
        return (c :: cs, rest)
    else (readLines quote 2 bound rest).map fun (cs, rest) => (c :: cs, rest)

def dropLineFeed : List Char → List Char
  | '\n' :: rest => rest
  | cs => cs

def readString (cs : List Char) : Option (Text × List Char) :=
  let read := match cs with
    | '"' :: '"' :: '"' :: rest => readLines '"' 2 (rest.length + 1) (dropLineFeed rest)
    | '\'' :: '\'' :: '\'' :: rest => readLines '\'' 2 (rest.length + 1) (dropLineFeed rest)
    | '"' :: rest => readQuoted (rest.length + 1) rest
    | '\'' :: rest => readLiteral rest
    | _ => none
  read.map fun (cs, rest) => (Text.ofChars cs, rest)

def isBareChar (c : Char) : Bool := c.toNat < 128 && isBare (UInt8.ofNat c.toNat)

/-- A name: in quotes on one line, or bare. -/
def readName (cs : List Char) : Option (Text × List Char) :=
  match cs with
  | '"' :: rest => (readQuoted (rest.length + 1) rest).map fun (cs, rest) => (Text.ofChars cs, rest)
  | '\'' :: rest => (readLiteral rest).map fun (cs, rest) => (Text.ofChars cs, rest)
  | _ =>
    let name := cs.takeWhile isBareChar
    if name.isEmpty then none else some (Text.ofChars name, cs.dropWhile isBareChar)

/-- A key and the blanks around it. -/
def readKey : Nat → List Char → Option (Key × List Char)
  | 0, _ => none
  | bound + 1, cs => do
    let (name, rest) ← readName (skipBlanks cs)
    match skipBlanks rest with
    | '.' :: rest =>
      let (names, rest) ← readKey bound rest
      return (name :: names, rest)
    | rest => return ([name], rest)

def textOf (cs : List Char) : Text := cs.map fun c => UInt8.ofNat c.toNat

def readFloat (cs : List Char) : Option (Value × List Char) :=
  let isPart (c : Char) : Bool :=
    c.isDigit || c == '_' || c == '.' || c == '-' || c == '+' || c == 'e' || c == 'E'
  if isFloat (textOf (cs.takeWhile isPart)) then some (.float, cs.dropWhile isPart) else none

def readTime (cs : List Char) : Option (Value × List Char) :=
  let isPart (c : Char) : Bool := c.isDigit || "-:Tt .Zz+".toList.contains c
  let part := ((cs.takeWhile isPart).reverse.dropWhile (· == ' ')).reverse
  if isTime (textOf part) then some (.time, cs.dropWhile isPart) else none

def readInteger (isPart : Char → Bool) (lead : List Char) (cs : List Char) :
    Option (Value × List Char) :=
  (readInt? (textOf (lead ++ cs.takeWhile isPart))).map fun n => (.int n, cs.dropWhile isPart)

def startsFraction : List Char → Bool
  | c :: _ => c == '.' || c == 'e' || c == 'E'
  | [] => false

/-- A decimal number, possibly after a sign. -/
def readDecimal (lead cs : List Char) : Option (Value × List Char) :=
  let isPart (c : Char) : Bool := c.isDigit || c == '_'
  if startsFraction (cs.dropWhile isPart) then readFloat (lead ++ cs)
  else readInteger isPart lead cs

/-- A value that starts with a digit. No date or time starts with a single zero. -/
def readNumber (cs : List Char) : Option (Value × List Char) :=
  let based (mark : Char) (isDigit : Char → Bool) (rest : List Char) : Option (Value × List Char) :=
    if (rest.head?.map isDigit).getD false then
      readInteger (fun c => isDigit c || c == '_') ['0', mark] rest
    else none
  match cs with
  | '0' :: 'b' :: rest => based 'b' (fun c => c == '0' || c == '1') rest
  | '0' :: 'o' :: rest => based 'o' (fun c => '0' ≤ c && c ≤ '7') rest
  | '0' :: 'x' :: rest =>
    based 'x' (fun c => c.toNat < 128 && isHexDigit (UInt8.ofNat c.toNat)) rest
  | '0' :: '-' :: _ | '0' :: ':' :: _ => none
  | _ =>
    match cs.dropWhile (·.isDigit) with
    | '-' :: _ | ':' :: _ => readTime cs
    | _ => readDecimal [] cs

def readSigned (sign : Char) (cs : List Char) : Option (Value × List Char) :=
  match cs with
  | 'i' :: 'n' :: 'f' :: rest | 'n' :: 'a' :: 'n' :: rest => some (.float, rest)
  | '0' :: 'b' :: _ | '0' :: 'o' :: _ | '0' :: 'x' :: _ => none
  | c :: rest => if c.isDigit then readDecimal [sign] (c :: rest) else none
  | [] => none

/-- A value that is not made of other values. -/
def readScalar (cs : List Char) : Option (Value × List Char) :=
  match cs with
  | '"' :: _ | '\'' :: _ => (readString cs).map fun (t, rest) => (.text t, rest)
  | 't' :: 'r' :: 'u' :: 'e' :: rest => some (.bool true, rest)
  | 'f' :: 'a' :: 'l' :: 's' :: 'e' :: rest => some (.bool false, rest)
  | 'i' :: 'n' :: 'f' :: rest | 'n' :: 'a' :: 'n' :: rest => some (.float, rest)
  | '-' :: rest => readSigned '-' rest
  | '+' :: rest => readSigned '+' rest
  | c :: _ => if c.isDigit then readNumber cs else none
  | [] => none

/-- Skips blanks, line ends and comments. -/
def skipGaps : Nat → List Char → List Char
  | 0, cs => cs
  | bound + 1, cs =>
    match cs.dropWhile (fun c => isBlank c || isLineEnd c) with
    | '#' :: rest => skipGaps bound (skipLine rest)
    | rest => rest

mutual

/-- A value and the blanks before it. The bound is on how much is nested or repeated. -/
def readValue : Nat → List Char → Option (Value × List Char)
  | 0, _ => none
  | bound + 1, cs =>
    match skipBlanks cs with
    | '[' :: rest => (readItemsOf bound rest).map fun (items, rest) => (.array items, rest)
    | '\x7b' :: rest =>
      match skipBlanks rest with
      | '\x7d' :: rest => some (.inlineTable [], rest)
      | rest => (readFieldsOf bound rest).map fun (fields, rest) => (.inlineTable fields, rest)
    | rest => readScalar rest

/-- The rest of an array. A comma may follow its last item. -/
def readItemsOf : Nat → List Char → Option (List Value × List Char)
  | 0, _ => none
  | bound + 1, cs =>
    match skipGaps cs.length cs with
    | ']' :: rest => some ([], rest)
    | rest => do
      let (item, rest) ← readValue bound rest
      match skipGaps rest.length rest with
      | ']' :: rest => return ([item], rest)
      | ',' :: rest =>
        let (items, rest) ← readItemsOf bound rest
        return (item :: items, rest)
      | _ => none

/-- The rest of an inline table with at least one more field. -/
def readFieldsOf : Nat → List Char → Option (List (Key × Value) × List Char)
  | 0, _ => none
  | bound + 1, cs => do
    let (key, rest) ← readKey cs.length cs
    match rest with
    | '=' :: rest =>
      let (value, rest) ← readValue bound rest
      match skipBlanks rest with
      | '\x7d' :: rest => return ([(key, value)], rest)
      | ',' :: rest =>
        let (fields, rest) ← readFieldsOf bound rest
        return ((key, value) :: fields, rest)
      | _ => none
    | _ => none

end

/-- The rest of a line after an item: blanks and a comment. -/
def endLine (cs : List Char) : Option (List Char) :=
  match skipBlanks cs with
  | [] => some []
  | '#' :: rest => some (skipLine rest)
  | c :: rest => if isLineEnd c then some rest else none

/-- One item, without the end of its line. -/
def readItem (cs : List Char) : Option (Item × List Char) := do
  match cs with
  | '[' :: '[' :: rest =>
    match ← readKey rest.length rest with
    | (key, ']' :: ']' :: rest) => return (.arrayTable key, rest)
    | _ => none
  | '[' :: rest =>
    match ← readKey rest.length rest with
    | (key, ']' :: rest) => return (.table key, rest)
    | _ => none
  | _ =>
    match ← readKey cs.length cs with
    | (key, '=' :: rest) =>
      let (value, rest) ← readValue (rest.length + 1) rest
      return (.pair key value, rest)
    | _ => none

def readItems : Nat → List Char → Option (List Item)
  | 0, _ => none
  | bound + 1, cs =>
    match skipGaps cs.length cs with
    | [] => some []
    | rest => do
      let (item, rest) ← readItem rest
      return item :: (← readItems bound (← endLine rest))

/-- Whether a character may not stand in a document. -/
def isControl (c : Char) : Bool :=
  (c.toNat < 32 && c != '\t' && !isLineEnd c) || c.toNat == 127

/-- Whether every carriage return is followed by a line feed and no other control stands
anywhere. -/
def isClean : List Char → Bool
  | [] => true
  | '\r' :: '\n' :: rest => isClean rest
  | c :: rest => c != '\r' && !isControl c && isClean rest

def dropMark : Text → Text
  | 0xFF :: 0xFE :: rest | 0xFE :: 0xFF :: rest | 0xEF :: 0xBB :: 0xBF :: rest => rest
  | bytes => bytes

/-- The items of a document, unless it is malformed. -/
def read? (bytes : Text) : Option (List Item) :=
  let bytes := dropMark bytes
  let cs := Text.chars bytes
  if Text.isValid bytes && isClean cs then readItems (cs.length + 1) cs else none

end PrgScript.Toml
