/-!
# Documents

The values of JSON documents: what a window carries as its data and what a store
keeps. A number is whole or a float, as it was written. A record is read field by
field from a value of a document format. The fields are found by name, or, when the
record is given as a list, by their order. Which values stand for texts, numbers or
records is a matter of the format.
-/
namespace DesktopShell

inductive Json where
  | null
  | flag (value : Bool)
  | whole (value : Int)
  | float (value : Float)
  | text (value : String)
  | list (items : List Json)
  | object (fields : List (String × Json))
deriving Inhabited

namespace Json

def empty : Json := .object []

/-- Fields with one value set: in its place when the name is there, at the end otherwise. -/
def setField (name : String) (value : Json) : List (String × Json) → List (String × Json)
  | [] => [(name, value)]
  | (key, old) :: rest =>
    if key = name then (key, value) :: rest else (key, old) :: setField name value rest

/-- Fields with those of a patch set one after another. -/
def mergeFields (fields patch : List (String × Json)) : List (String × Json) :=
  patch.foldl (fun merged field => setField field.1 field.2 merged) fields

/-- An object with the fields of a patch set; what is no object is replaced by the patch. -/
def patched (data : Json) (patch : List (String × Json)) : Json :=
  match data with
  | .object fields => .object (mergeFields fields patch)
  | _ => .object patch

def ofWord (n : UInt64) : Json := .whole n.toNat

/-- A coordinate; a number that is not finite has no JSON form and becomes null. -/
def ofFloat (x : Float) : Json := if x.isFinite then .float x else .null

def ofText? : Option String → Json
  | some s => .text s
  | none => .null

end Json

/-- The fields of a record that are still to be read. -/
inductive Fields (V : Type) where
  /-- Fields by name. -/
  | named (fields : List (String × V))
  /-- The values of the fields in the order of the record. -/
  | listed (values : List V)

/-- A document format: how its values are looked at. -/
class Format (V : Type) where
  text? : V → Option String
  flag? : V → Option Bool
  whole? : V → Option Int
  float? : V → Option Float
  list? : V → Option (List V)
  fields? : V → Option (Fields V)
  /-- The name that a value of an enumeration gives. -/
  choice? : V → Option String
  isNull : V → Bool
  /-- Whether a record given as a list may have more values than fields. -/
  allowsSpare : Bool

/-- Reads part of a record and leaves the fields that are still to be read. -/
abbrev Reader (V α : Type) := StateT (Fields V) Option α

namespace Reader
variable {V α : Type}

/-- The next field, by its name or by its place, if it is there. -/
def next? (name : String) : Reader V (Option V) := fun fields =>
  match fields with
  | .named fs => some (fs.lookup name, .named fs)
  | .listed [] => some (none, .listed [])
  | .listed (v :: vs) => some (some v, .listed vs)

def required (name : String) (read : V → Option α) : Reader V α := do
  match ← next? name with
  | some v => StateT.lift (read v)
  | none => failure

/-- A field with a value that stands in when it is not there. -/
def withDefault (name : String) (default : α) (read : V → Option α) : Reader V α := do
  match ← next? name with
  | some v => StateT.lift (read v)
  | none => pure default

def isNamed : Reader V Bool := fun fields =>
  match fields with
  | .named fs => some (true, .named fs)
  | .listed vs => some (false, .listed vs)

/-- A field that may be null or, in a record with names, absent. -/
def nullable [Format V] (name : String) (read : V → Option α) : Reader V (Option α) := do
  match ← next? name with
  | some v => if Format.isNull v then pure none else StateT.lift ((read v).map some)
  | none => if ← isNamed then pure none else failure

/-- Runs a reader on the fields of a record, which it has to use up when they are listed. -/
def run? [Format V] (reader : Reader V α) (fields : Fields V) : Option α :=
  match reader fields with
  | some (a, .named _) => some a
  | some (a, .listed rest) =>
    if rest.isEmpty || Format.allowsSpare V then some a else none
  | none => none

def record? [Format V] (reader : Reader V α) (value : V) : Option α :=
  (Format.fields? value).bind reader.run?

/-- Reads a value as a record whose fields have names. -/
def namedRecord? [Format V] (reader : Reader V α) (value : V) : Option α :=
  match Format.fields? value with
  | some (.named fs) => reader.run? (.named fs)
  | _ => none

end Reader

namespace Format
variable {V : Type} [Format V]

/-- A whole number from zero to below a bound. -/
def below? (bound : Nat) (value : V) : Option Nat :=
  match whole? value with
  | some (.ofNat n) => if n < bound then some n else none
  | _ => none

def word? (value : V) : Option UInt64 := (below? (Nat.pow 2 64) value).map UInt64.ofNat

def version? (value : V) : Option UInt32 := (below? (Nat.pow 2 32) value).map UInt32.ofNat

def listOf? {α : Type} (read : V → Option α) (value : V) : Option (List α) :=
  (list? value).bind fun values => values.mapM read

/-- A value of an enumeration by its name. -/
def named? {α : Type} (ofName? : String → Option α) (value : V) : Option α :=
  (choice? value).bind ofName?

end Format

namespace Json

def text? : Json → Option String
  | .text s => some s
  | _ => none

/-- The name of a choice: a text, or an object whose only field is the name with null. -/
def choiceName? : Json → Option String
  | .text s => some s
  | .object [(name, .null)] => some name
  | _ => none

def float? : Json → Option Float
  | .whole (.ofNat n) => some (Float.ofScientific n false 0)
  | .whole (.negSucc n) => some (-Float.ofScientific (n + 1) false 0)
  | .float x => some x
  | _ => none

end Json

instance : Format Json where
  text? := Json.text?
  flag? | .flag b => some b | _ => none
  whole? | .whole n => some n | _ => none
  float? := Json.float?
  list? | .list items => some items | _ => none
  fields? | .object fs => some (.named fs) | .list vs => some (.listed vs) | _ => none
  choice? := Json.choiceName?
  isNull | .null => true | _ => false
  allowsSpare := false

end DesktopShell
