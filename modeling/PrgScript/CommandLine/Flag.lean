import PrgScript.Number.Integer
import PrgScript.Text.Quoted

/-!
# Flags

A flag is given by its long name or by a letter. A switch may stand alone; every other
flag takes a value, which is part of the same argument or is the next one. Flags and
other arguments may stand in any order, up to an argument of two hyphens, after which
no flags follow.
-/

namespace PrgScript.CommandLine

inductive FlagKind where
  | text
  | switch
  | number
deriving DecidableEq, Repr

structure Flag where
  name : Text
  letter : Option UInt8 := none
  kind : FlagKind := .text
  /-- The value without the flag, as help shows it. -/
  initial : Text := []
  usage : Text

inductive FlagValue where
  | text (value : Text)
  | switch (value : Bool)
  | number (value : Int)
deriving DecidableEq, Repr

inductive FlagError where
  | unknown (name : Text)
  | unknownLetter (letter : UInt8) (letters : Text)
  | noValue (name : Text)
  | noLetterValue (letter : UInt8) (letters : Text)
  | badForm (argument : Text)
  | badValue (flag : Flag) (value reason : Text)

/-- A letter in single quotes. A byte outside ASCII is taken as the character with its number, and
of that character only the first byte counts, again as a character. -/
def quotedLetter (b : UInt8) : Text :=
  let first := (Text.ofChars [Char.ofNat b.toNat]).headD 0
  let shown : Text :=
    if b = 39 then "\\'" else if b = 34 then [b] else Text.quoteChar (Char.ofNat first.toNat)
  "'" ++ shown ++ "'"

/-- A flag as messages name it. -/
def Flag.shown (f : Flag) : Text :=
  match f.letter with
  | some letter => "-" ++ [letter] ++ ", --" ++ f.name
  | none => "--" ++ f.name

def FlagError.message : FlagError → Text
  | .unknown name => "unknown flag: --" ++ name
  | .unknownLetter letter letters =>
    "unknown shorthand flag: " ++ quotedLetter letter ++ " in -" ++ letters
  | .noValue name => "flag needs an argument: --" ++ name
  | .noLetterValue letter letters =>
    "flag needs an argument: " ++ quotedLetter letter ++ " in -" ++ letters
  | .badForm argument => "bad flag syntax: " ++ argument
  | .badValue flag value reason =>
    "invalid argument " ++ Text.quote value ++ " for " ++ Text.quote flag.shown ++ " flag: " ++
      reason

def truthTexts : List (Text × Bool) := [
  ("1", true), ("t", true), ("T", true), ("TRUE", true), ("true", true), ("True", true),
  ("0", false), ("f", false), ("F", false), ("FALSE", false), ("false", false), ("False", false)]

/-- The reason why a text is not read as a value. -/
def readingFault (reader : String) (value : Text) (e : Number.ReadError) : Text :=
  "strconv." ++ reader ++ ": parsing " ++ Text.quote value ++ ": " ++
    match e with
    | .malformed => "invalid syntax"
    | .outOfRange => "value out of range"

def Flag.read (f : Flag) (value : Text) : Except FlagError FlagValue :=
  match f.kind with
  | .text => .ok (.text value)
  | .switch =>
    match truthTexts.lookup value with
    | some b => .ok (.switch b)
    | none => .error (.badValue f value (readingFault "ParseBool" value .malformed))
  | .number =>
    match Number.readInteger value with
    | .ok n => .ok (.number n)
    | .error e => .error (.badValue f value (readingFault "ParseInt" value e))

/-- The arguments read so far: the values given to flags, the latest first, and all other arguments
in order. -/
structure Arguments where
  values : List (Text × FlagValue) := []
  others : List Text := []

namespace Arguments

def isGiven (a : Arguments) (name : Text) : Bool := (a.values.lookup name).isSome

/-- The text given to a flag, or nothing. -/
def text (a : Arguments) (name : Text) : Text :=
  match a.values.lookup name with
  | some (.text value) => value
  | _ => []

def switch (a : Arguments) (name : Text) : Bool :=
  match a.values.lookup name with
  | some (.switch value) => value
  | _ => false

/-- The number given to a flag, or zero. -/
def number (a : Arguments) (name : Text) : Int :=
  match a.values.lookup name with
  | some (.number value) => value
  | _ => 0

def assign (a : Arguments) (f : Flag) (value : Text) : Except FlagError Arguments := do
  return { a with values := (f.name, ← f.read value) :: a.values }

/-- The value of a switch that stands alone. -/
def on : Text := "true"

/-- A flag that waits for its value, with the refusal in case there is none. -/
abbrev Waiting := Option (Flag × FlagError)

/-- Reads an argument with a long name, its hyphens taken off. -/
def readLong (flags : List Flag) (a : Arguments) (body : Text) :
    Except FlagError (Arguments × Waiting) := do
  if body.head? = some 45 ∨ body.head? = some 61 then throw (.badForm ("--" ++ body))
  let (name, value) := match Text.cut? 61 body with
    | some (name, value) => (name, some value)
    | none => (body, none)
  match flags.find? (·.name == name), value with
  | none, _ => throw (.unknown name)
  | some f, some value => return (← a.assign f value, none)
  | some f, none =>
    if f.kind = .switch then return (← a.assign f on, none)
    else return (a, some (f, .noValue name))

/-- Letters that begin an argument meant for a test runner, which is passed over. -/
def runnerLetters : Text := "test."

/-- Reads an argument of letters, its hyphen taken off. -/
def readLetters (flags : List Flag) (a : Arguments) : Text → Except FlagError (Arguments × Waiting)
  | [] => return (a, none)
  | letter :: rest =>
    if runnerLetters.isPrefixOf (letter :: rest) then return (a, none)
    else match flags.find? (·.letter == some letter), rest with
    | none, _ => throw (.unknownLetter letter (letter :: rest))
    | some f, 61 :: b :: value => do return (← a.assign f (b :: value), none)
    | some f, rest => do
      if f.kind = .switch then readLetters flags (← a.assign f on) rest
      else if rest = [] then return (a, some (f, .noLetterValue letter [letter]))
      else return (← a.assign f rest, none)

def readFrom (flags : List Flag) (a : Arguments) (waiting : Waiting) :
    List Text → Except FlagError Arguments
  | [] =>
    match waiting with
    | some (_, refusal) => throw refusal
    | none => return a
  | argument :: rest => do
    match waiting, argument with
    | some (f, _), value => readFrom flags (← a.assign f value) none rest
    | none, [45, 45] => return { a with others := a.others ++ rest }
    | none, 45 :: 45 :: body =>
      let (a, waiting) ← a.readLong flags body
      readFrom flags a waiting rest
    | none, 45 :: b :: letters =>
      let (a, waiting) ← a.readLetters flags (b :: letters)
      readFrom flags a waiting rest
    | none, other => readFrom flags { a with others := a.others ++ [other] } none rest

def read (flags : List Flag) (arguments : List Text) : Except FlagError Arguments :=
  readFrom flags {} none arguments

end Arguments

end PrgScript.CommandLine
