import PrgScript.Builder.Basic
import PrgScript.Pack.Read
import PrgScript.Program.Packed

/-!
# Artifacts

An artifact is a compiled script as it is kept on disk: the program and its listing,
with the digest of the source it was made from, so that a changed source is noticed.
An artifact carries the number of the schema it was written with.
-/

namespace PrgScript

/-- A compiled script as it is kept on disk. -/
structure Artifact where
  schema : Nat := 0
  key : Text := []
  source : Text := []
  hash : Text := []
  dialect : Text := []
  listing : Text := []
  /-- When the artifact was made, in microseconds since the start of the year 1970. -/
  created : Int := 0
  program : Program := { name := [] }
deriving DecidableEq

namespace Artifact

/-- The schema in use. It changes whenever the form of artifacts does. -/
def currentSchema : Nat := 1

/-- The dialect of every artifact. -/
def primaryDialect : Text := "dbase"

def toPack (a : Artifact) : Pack :=
  .record [("schema", .int a.schema), ("key", .text a.key), ("source", .text a.source),
    ("hash", .bytes a.hash), ("dialect", .text a.dialect), ("listing", .text a.listing),
    ("created", .int a.created), ("program", a.program.toPack)]

/-- An artifact with one field set from a record. A field that no artifact has is passed over. -/
def setField? (a : Artifact) (name : Text) (value : Pack) : Option Artifact :=
  if name = "schema" then
    match value with
    | .int (.ofNat schema) => some { a with schema }
    | _ => none
  else if name = "key" then value.text?.map fun key => { a with key }
  else if name = "source" then value.text?.map fun source => { a with source }
  else if name = "hash" then
    match value with
    | .bytes hash => some { a with hash }
    | _ => none
  else if name = "dialect" then value.text?.map fun dialect => { a with dialect }
  else if name = "listing" then value.text?.map fun listing => { a with listing }
  else if name = "created" then
    match value with
    | .int created => some { a with created }
    | _ => none
  else if name = "program" then (Program.ofPack? value).map fun program => { a with program }
  else some a

/-- The artifact in a record; a field that is left out is empty. Nothing and an empty list stand for
the empty artifact. -/
def ofPack? : Pack → Option Artifact
  | .nil | .list [] => some {}
  | .record fields => fields.foldlM (fun a (name, value) => a.setField? name value) {}
  | _ => none

def encode (a : Artifact) : Text := a.toPack.write

def decodeFault (bytes : Text) : Text :=
  match bytes with
  | [] => "EOF"
  | b :: _ =>
    match Pack.Head.ofByte? b with
    | some (.record ..) | some (.list ..) => "unexpected EOF"
    | _ => "msgpack: unexpected code=" ++ Text.ofHex 1 b.toNat ++ " decoding map length"

/-- The artifact that bytes start with. -/
def decode (bytes : Text) : Except Text Artifact :=
  match (Pack.read? bytes).bind ofPack? with
  | some a => .ok a
  | none => .error (decodeFault bytes)

end Artifact

end PrgScript
