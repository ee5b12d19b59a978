import PrgScript.Toml.Document
import PrgScript.Trace.Level

/-!
# Settings

What a user can choose: where artifacts are kept and whether their names are trusted,
whether output is coloured, how many diagnostics are shown, and what is traced. A
manifest holds them in tables.
-/

namespace PrgScript

/-- What a user can choose. -/
structure Settings where
  /-- Where artifacts are kept; if empty, at the usual place. -/
  cacheDirectory : Text := []
  trustsNames : Bool := false
  color : Text := "auto"
  /-- The most diagnostics shown for one script, if positive. -/
  limit : Int := 100
  traceLevel : Text := "off"
  traceFormat : Text := "text"
  /-- The manifest that the settings come from, if any. -/
  manifest : Text := []

inductive SettingsFault where
  | color (name : Text)
  | negativeLimit
  | traceLevel (name : Text)
  | traceFormat (name : Text)

def SettingsFault.message : SettingsFault → Text
  | .color name => "[run] color must be auto, on or off, got " ++ Text.quote name
  | .negativeLimit => "[run] max_diagnostics must not be negative"
  | .traceLevel name => "[trace] level: " ++ Trace.Level.unknownName name
  | .traceFormat name => "[trace] format: " ++ Trace.Format.unknownName name

namespace Settings

def fault? (s : Settings) : Option SettingsFault :=
  if ¬ (s.color = "auto" ∨ s.color = "on" ∨ s.color = "off") then some (.color s.color)
  else if s.limit < 0 then some .negativeLimit
  else if (Trace.Level.ofName? s.traceLevel).isNone then some (.traceLevel s.traceLevel)
  else if (Trace.Format.ofName? s.traceFormat).isNone then some (.traceFormat s.traceFormat)
  else none

/-- Sets a text from a value; another kind of value is refused. -/
def setText (set : Text → Settings) : Toml.Node → Option Settings
  | .value (.text t) => some (set t)
  | _ => none

def setBool (set : Bool → Settings) : Toml.Node → Option Settings
  | .value (.bool b) => some (set b)
  | _ => none

def setInt (set : Int → Settings) : Toml.Node → Option Settings
  | .value (.int n) => some (set n)
  | _ => none

/-- How a setting is set from what stands under its name. -/
abbrev Setter := Settings → Toml.Node → Option Settings

/-- The settings by table and name. -/
def setters : List (Text × List (Text × Setter)) := [
  ("cache", [
    ("dir", fun s => setText fun t => { s with cacheDirectory := t }),
    ("trust_name", fun s => setBool fun b => { s with trustsNames := b })]),
  ("run", [
    ("color", fun s => setText fun t => { s with color := t }),
    ("max_diagnostics", fun s => setInt fun n => { s with limit := n })]),
  ("trace", [
    ("level", fun s => setText fun t => { s with traceLevel := t }),
    ("format", fun s => setText fun t => { s with traceFormat := t })])]

/-- What is known under a name: the same name, else one that differs from it in letter case only. -/
def named? {α : Type} (name : Text) (known : List (Text × α)) : Option α :=
  (known.lookup name).or ((known.find? fun (n, _) => Text.sameFold n name).map (·.2))

/-- Settings read so far, and the keys that were known. -/
abbrev Reading := Settings × List Toml.Key

def readFields (table : Text) (known : List (Text × Setter)) (r : Reading) :
    Toml.Fields → Option Reading
  | [] => some r
  | (name, node) :: fields =>
    match named? name known with
    | none => readFields table known r fields
    | some setter => do
      readFields table known (← setter r.1 node, [table, name] :: r.2) fields

def readTables (r : Reading) : Toml.Fields → Option Reading
  | [] => some r
  | (name, node) :: rest =>
    match named? name setters, node with
    | none, _ => readTables r rest
    | some known, .table fields => do
      readTables (← readFields name known (r.1, [name] :: r.2) fields) rest
    | some _, _ => none

/-- The keys of a document that name no setting, in increasing order of their text. -/
def unknownKeys (doc : Toml.Document) (known : List Toml.Key) : List Text :=
  ((doc.keys.filter (!known.contains ·)).map Toml.keyText).mergeSort fun a b => !Text.less b a

end Settings

end PrgScript
