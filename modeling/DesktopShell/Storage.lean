import DesktopShell.Document
import DesktopShell.Sequence
import DesktopShell.Text

/-!
# Storage

What is saved lies in an envelope that says whose it is, in which version it was
written and when. Stamps grow also when the clock stands still, so that of two
envelopes the later one is known. A store keeps one envelope for each name. What is
loaded from it is read in the version that the reader wants: an envelope of that version
is read as it is, an older one is migrated, and any other counts as absent. A store is
reached by handles; a copy of a handle reaches the same store.
-/
namespace DesktopShell

/-- The stamp after the last one at a time: the time, or one more than the last when the clock
    stands still or goes back. -/
def nextStamp (last now : UInt64) : UInt64 := max now (Counter.next last)

/-- A change of a shared word in one go: the word after it, and the word before it, as an error when nothing is
    changed. -/
def fetchUpdate (word : UInt64) (change : UInt64 → Option UInt64) : UInt64 × Except UInt64 UInt64 :=
  match change word with
  | some changed => (changed, .ok word)
  | none => (word, .error word)

/-- Takes a stamp at a time: the shared word after it, and the stamp. The word is changed in one go; the stamp is
    computed once more from what the word was before. -/
def takeStamp (last now : UInt64) : UInt64 × UInt64 :=
  let (kept, previous) := fetchUpdate last fun last => some (nextStamp last now)
  (kept, nextStamp (previous.toOption.getD now) now)

/-- Takes a stamp at each of some times, with the shared word after each. -/
def takeStamps (last : UInt64) : List UInt64 → List (UInt64 × UInt64)
  | [] => []
  | now :: later =>
    let taken := takeStamp last now
    taken :: takeStamps taken.1 later

/-- Saved data with its owner and version. -/
structure Envelope where
  /-- The version of envelopes. -/
  format : UInt32
  /-- The name of the owner, under which a store keeps the data. -/
  name : String
  /-- The version of the payload, which its owner counts. -/
  schema : UInt32
  updatedAt : UInt64
  payload : Json

namespace Envelope

/-- The version of envelopes that is written and read. -/
def currentFormat : UInt32 := 1

def make (name : String) (schema : UInt32) (payload : Json) (stamp : UInt64) : Envelope :=
  { format := currentFormat, name, schema, updatedAt := stamp, payload }

def reader : Reader Json Envelope := do
  let format ← .required "envelope_version" Format.version?
  let name ← .required "namespace" Format.text?
  let schema ← .required "schema_version" Format.version?
  let updatedAt ← .required "updated_at_unix_ms" Format.word?
  let payload ← .required "payload" some
  return { format, name, schema, updatedAt, payload }

def ofJson? (value : Json) : Option Envelope := reader.record? value

def toJson (e : Envelope) : Json :=
  .object [("envelope_version", .whole e.format.toNat), ("namespace", .text e.name),
    ("schema_version", .whole e.schema.toNat), ("updated_at_unix_ms", .ofWord e.updatedAt),
    ("payload", e.payload)]

end Envelope

inductive Store where
  /-- Keeps envelopes in memory, ordered by their names. -/
  | memory (envelopes : List Envelope)
  /-- Takes everything and keeps nothing. -/
  | discarding
  /-- Fails at every call, for a reason. -/
  | offline (reason : String)

namespace Store

/-- Envelopes with one put in, in the place of the one with its name if there is one. -/
def insert (e : Envelope) (envelopes : List Envelope) : List Envelope := insertByKey Envelope.name e envelopes

def save (store : Store) (e : Envelope) : Except String Store :=
  match store with
  | .memory envelopes => .ok (.memory (insert e envelopes))
  | .discarding => .ok .discarding
  | .offline reason => .error reason

/-- The envelope that is kept under a name. -/
def load (store : Store) (name : String) : Except String (Option Envelope) :=
  match store with
  | .memory envelopes => .ok (envelopes.find? fun e => e.name = name)
  | .discarding => .ok none
  | .offline reason => .error reason

def delete (store : Store) (name : String) : Except String Store :=
  match store with
  | .memory envelopes => .ok (.memory (envelopes.filter fun e => e.name ≠ name))
  | .discarding => .ok .discarding
  | .offline reason => .error reason

/-- The names that a store keeps envelopes under, in order. -/
def names : Store → List String
  | .memory envelopes => envelopes.map (·.name)
  | _ => []

/-- Saves a payload in a new envelope. -/
def saveAs (store : Store) (name : String) (schema : UInt32) (payload : Json) (stamp : UInt64) :
    Except String Store :=
  store.save (.make name schema payload stamp)

/-- Why a payload cannot be loaded. -/
inductive LoadFault where
  /-- The store fails. -/
  | store (reason : String)
  | payload
  /-- The payload of an older version cannot be taken over. -/
  | migration (reason : String)
deriving Repr, DecidableEq

/-- What a store has under each name, or the reason why it fails. Whoever only loads needs nothing else of a store. -/
abbrev Source := String → Except String (Option Envelope)

/-- Loads the payload that is kept under a name. An envelope of another format or of a newer version counts as
    absent, and one of an older version is left to the migration. -/
def loadFrom {α : Type} (source : Source) (name : String) (current : UInt32) (read : Json → Option α)
    (migrate : Envelope → Except LoadFault (Option α)) : Except LoadFault (Option α) :=
  match source name with
  | .error reason => .error (.store reason)
  | .ok none => .ok none
  | .ok (some e) =>
    if e.format ≠ Envelope.currentFormat then .ok none
    else if e.schema = current then
      match read e.payload with
      | some value => .ok (some value)
      | none => .error .payload
    else if current < e.schema then .ok none
    else migrate e

def loadAs {α : Type} (store : Store) (name : String) (current : UInt32) (read : Json → Option α)
    (migrate : Envelope → Except LoadFault (Option α)) : Except LoadFault (Option α) :=
  loadFrom store.load name current read migrate

/-- The migration of a record whose version 0 is written like the current one. -/
def fromVersionZero {α : Type} (read : Json → Option α) (e : Envelope) :
    Except LoadFault (Option α) :=
  if e.schema = 0 then
    match read e.payload with
    | some value => .ok (some value)
    | none => .error .payload
  else .ok none

end Store

namespace Store

/-- What is asked of a store. -/
inductive Request where
  | save (e : Envelope)
  /-- Saving a payload in a new envelope, or the reason why it has no JSON form. -/
  | saveAs (name : String) (schema : UInt32) (payload : Except String Json) (stamp : UInt64)
  | delete (name : String)
  /-- Loading the payload under a name in a version, whatever comes of it. -/
  | load (name : String) (current : UInt32)

def Request.run (store : Store) : Request → Except String Store
  | .save e => store.save e
  | .saveAs name schema payload stamp =>
    match payload with
    | .ok json => store.saveAs name schema json stamp
    | .error reason => .error reason
  | .delete name => store.delete name
  | .load _ _ => .ok store

/-- The store after a request; one that fails leaves it as it is. -/
def after (store : Store) (request : Request) : Store :=
  match request.run store with
  | .ok kept => kept
  | .error _ => store

end Store

/-- Stores, and by their numbers the handles that reach them. -/
structure Shelf where
  stores : List Store
  /-- The place of the store that a handle reaches. -/
  handles : List Nat

namespace Shelf

def empty : Shelf := ⟨[], []⟩

/-- What is done with stores; a new handle gets the next number. -/
inductive Call where
  /-- A new store in memory, with a handle. -/
  | create
  | copy (handle : Nat)
  | ask (handle : Nat) (request : Store.Request)

/-- The handle that a call goes by. -/
def Call.handle? : Call → Option Nat
  | .create => none
  | .copy handle => some handle
  | .ask handle _ => some handle

def step (s : Shelf) : Call → Shelf
  | .create => { stores := s.stores ++ [.memory []], handles := s.handles ++ [s.stores.length] }
  | .copy handle =>
    match s.handles[handle]? with
    | some place => { s with handles := s.handles ++ [place] }
    | none => s
  | .ask handle request =>
    match s.handles[handle]? with
    | some place => { s with stores := s.stores.modify place fun store => store.after request }
    | none => s

end Shelf

end DesktopShell
