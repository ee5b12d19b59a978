import PrgScript.Toml.Read

/-!
# The tables of a configuration document

The items of a document are gathered into tables. A table that was only named on the
way to another one is implicit: it may still be opened once by a header of its own.
Every other name may be given a value only once, unless it was last given an array:
what is given then takes the place of the array, and an array takes the place of
whatever stands under its name.
-/

namespace PrgScript.Toml

/-- What stands under a name. -/
inductive Node where
  | value (v : Value)
  | table (fields : List (Text × Node))
  /-- An array of tables, the last one first. -/
  | tables (last : List (Text × Node)) (others : List (List (Text × Node)))

abbrev Fields := List (Text × Node)

/-- The tables of a document, the keys of implicit tables, the keys that were last given an array,
and all keys in the order they were written. -/
structure Document where
  root : Fields := []
  implicits : List Key := []
  arrays : List Key := []
  keys : List Key := []

namespace Fields

def set (name : Text) (node : Node) : Fields → Fields
  | [] => [(name, node)]
  | (n, v) :: rest => if n = name then (name, node) :: rest else (n, v) :: set name node rest

/-- The table that a key leads to; an array of tables leads to its last one. -/
def at? : Key → Fields → Option Fields
  | [], fields => some fields
  | name :: names, fields =>
    match fields.lookup name with
    | some (.table inner) | some (.tables inner _) => at? names inner
    | _ => none

def modify? (f : Fields → Fields) : Key → Fields → Option Fields
  | [], fields => some (f fields)
  | name :: names, fields =>
    match fields.lookup name with
    | some (.table inner) => do
      return fields.set name (.table (← modify? f names inner))
    | some (.tables inner others) => do
      return fields.set name (.tables (← modify? f names inner) others)
    | _ => none

end Fields

namespace Document

/-- Whether a table exists only because something in it was given. -/
def isImplicit (doc : Document) (key : Key) : Bool := doc.implicits.contains key

def addImplicit (doc : Document) (key : Key) : Document :=
  if doc.isImplicit key then doc else { doc with implicits := key :: doc.implicits }

def removeImplicit (doc : Document) (key : Key) : Document :=
  { doc with implicits := doc.implicits.filter (· != key) }

def put? (doc : Document) (table : Key) (name : Text) (node : Node) : Option Document := do
  return { doc with root := ← Fields.modify? (Fields.set name node) table doc.root }

/-- Records whether a name of a table was last given an array. An empty name stands for the table
itself. -/
def markArray (doc : Document) (table : Key) (name : Text) (isArray : Bool) : Document :=
  let key := if name ≠ [] ∨ table = [] then table ++ [name] else table
  let others := doc.arrays.filter (· != key)
  { doc with arrays := if isArray then key :: others else others }

/-- Puts something under a name of a table: a new one, or one that was last given an array. An
implicit table stays, and is implicit no longer. -/
def setValue? (doc : Document) (table : Key) (name : Text) (node : Node) : Option Document := do
  let key := table ++ [name]
  if ((← Fields.at? table doc.root).lookup name).isNone then doc.put? table name node
  else if doc.arrays.contains key then (doc.removeImplicit key).put? table name node
  else if doc.isImplicit key then return doc.removeImplicit key
  else none

/-- Makes the tables on the way along a key, as far as they are missing, as implicit ones. -/
def openParents? (doc : Document) (before : Key) : Key → Option Document
  | [] => some doc
  | name :: names => do
    let inner := before ++ [name]
    let doc ← if ((← Fields.at? before doc.root).lookup name).isNone then
        (doc.addImplicit inner).put? before name (.table [])
      else some doc
    let _ ← Fields.at? inner doc.root
    openParents? doc inner names

def openTable? (doc : Document) (key : Key) : Option Document := do
  let doc ← doc.openParents? [] key.dropLast
  doc.setValue? key.dropLast (← key.getLast?) (.table [])

def openArrayTable? (doc : Document) (key : Key) : Option Document := do
  let doc ← doc.openParents? [] key.dropLast
  let name ← key.getLast?
  match (← Fields.at? key.dropLast doc.root).lookup name with
  | none => doc.put? key.dropLast name (.tables [] [])
  | some (.tables last others) => doc.put? key.dropLast name (.tables [] (last :: others))
  | some _ => none

/-- Opens the tables on the way along the first names of a key as implicit ones; returns where they
lead to. -/
def openDotted? (doc : Document) (table : Key) : Key → Option (Document × Key)
  | [] => some (doc, table)
  | name :: names => do
    let inner := table ++ [name]
    openDotted? (← (doc.addImplicit inner).openTable? inner) inner names

mutual

/-- What a value is by itself. Of a key in an inline table only the last name counts. -/
def nodeOf : Value → Node
  | .inlineTable fields => .table (fieldsOf [] fields)
  | v => .value v

/-- The fields of an inline table by itself, after some. -/
def fieldsOf (before : Fields) : List (Key × Value) → Fields
  | [] => before
  | (key, value) :: fields => fieldsOf (before.set (key.getLastD []) (nodeOf value)) fields

end

mutual

/-- Enters a value that is to stand under a name of a table: the tables in it are opened there. -/
def enterValue? (doc : Document) (table : Key) (name : Text) (inArray : Bool) :
    Value → Option Document
  | .array items => enterItems? (doc.markArray table name true) table name items
  | .inlineTable fields => do
    let key := table ++ [name]
    let doc := doc.addImplicit key
    let doc ← if inArray then doc.openArrayTable? key else doc.openTable? key
    enterFields? doc key fields
  | _ => some doc

/-- Enters the items of an array, which may hold tables. -/
def enterItems? (doc : Document) (table : Key) (name : Text) : List Value → Option Document
  | [] => some doc
  | item :: items => do
    enterItems? (← enterValue? doc table name true item) table name items

def enterFields? (doc : Document) (table : Key) : List (Key × Value) → Option Document
  | [] => some doc
  | (key, value) :: fields => do
    let (doc, inner) ← doc.openDotted? table key.dropLast
    let name ← key.getLast?
    let doc := { doc with keys := doc.keys ++ [inner ++ [name]] }
    let doc ← enterValue? doc inner name false value
    let doc ← doc.setValue? inner name (nodeOf value)
    enterFields? (doc.markArray inner name value.isArray) table fields

end

/-- Enters an item, given the table that was opened last; returns the table that is open then. -/
def enter? (doc : Document) (table : Key) : Item → Option (Document × Key)
  | .table key => do
    let doc := (← doc.openTable? key).markArray key [] false
    return ({ doc with keys := doc.keys ++ [key] }, key)
  | .arrayTable key => do
    let doc := (← doc.openArrayTable? key).markArray key [] false
    return ({ doc with keys := doc.keys ++ [key] }, key)
  | .pair key value => do
    return (← doc.enterFields? table [(key, value)], table)

def enterAll? (doc : Document) (table : Key) : List Item → Option Document
  | [] => some doc
  | item :: items => do
    let (doc, table) ← doc.enter? table item
    enterAll? doc table items

/-- The tables of a document, unless it is malformed. -/
def ofBytes? (bytes : Text) : Option Document := do ({} : Document).enterAll? [] (← read? bytes)

end Document

end PrgScript.Toml
