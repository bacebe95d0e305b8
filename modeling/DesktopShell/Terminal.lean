import DesktopShell.Desk

/-!
# Terminals

A session keeps what it has shown and which lines it was given, both up to a
limit, and recalls earlier lines one by one. It can be saved and restored. A console
is a terminal on a desk of its own, without a screen: it reads lines and prints what
they answer. `runAt` says what a whole input prints and how the run ends.
-/
namespace DesktopShell.Terminal

/-- An entry of a transcript. -/
inductive Entry where
  /-- A line as it was typed. -/
  | prompt (command : String)
  | output (text : String)
  | error (text : String)
  /-- A notice of the terminal itself. -/
  | system (text : String)
deriving Repr, DecidableEq

def Entry.render : Entry → String
  | .prompt command => "$ " ++ command
  | .output text => text
  | .error text => text
  | .system text => text

def Entry.isPrompt : Entry → Bool
  | .prompt _ => true
  | _ => false

def banner : List String := ["FluxoOS Terminal v1.0.0", "Type 'help' for available commands."]

structure Session where
  /-- The window that the session runs in. -/
  window : Option String
  transcript : List Entry
  history : List String
  /-- Where a recall stands in the history. -/
  cursor : Option Nat
  /-- How the last line ended. -/
  exit : Shell.Exit
deriving Repr, DecidableEq

/-- The number of entries that a transcript keeps. -/
def maxEntries : Nat := 200

/-- The number of lines that a history keeps. -/
def maxHistory : Nat := 100

/-- The last elements of a list, at most a number of them. -/
def keepLast {α : Type} (count : Nat) (xs : List α) : List α := xs.drop (xs.length - count)

namespace Session

def new (window : Option String) : Session :=
  { window, transcript := banner.map Entry.system, history := [], cursor := none
    exit := Shell.Exit.success }

def lines (s : Session) : List String := s.transcript.map Entry.render

/-- The session with a line in its history, unless it is the one before, and no recall. -/
def remember (s : Session) (command : String) : Session :=
  if s.history.getLast? = some command then { s with cursor := none }
  else { s with history := keepLast maxHistory (s.history ++ [command]), cursor := none }

/-- The entries for the answer to a line; an empty answer has none. -/
def answerEntries : Except Shell.Failure String → List Entry
  | .ok text => if text = "" then [] else [.output text]
  | .error failure => [.error failure.display]

/-- How a line with an answer ends. -/
def answerExit : Except Shell.Failure String → Shell.Exit
  | .ok _ => .success
  | .error failure => .ofFailure failure

/-- Carries out a line and gives the entries that it added, as the end of the transcript. A blank line
    does nothing, and clearing leaves nothing in the transcript. -/
def submit (s : Session) (desk : Desk) (now : UInt64) (line : String) :
    Session × Desk × List Entry :=
  let command := Text.trim line
  if command = "" then (s, desk, [])
  else
    let s := s.remember command
    if command = "clear" then ({ s with exit := .success, transcript := [] }, desk, [])
    else
      let (desk, answer) := desk.evaluate now line
      let added := Entry.prompt line :: answerEntries answer
      let transcript := keepLast maxEntries (s.transcript ++ added)
      ({ s with exit := answerExit answer, transcript }, desk, keepLast added.length transcript)

/-- Goes one line back in the history and stops at the oldest. -/
def previous (s : Session) : Session × Option String :=
  if s.history.isEmpty then (s, none)
  else
    let cursor := match s.cursor with
      | some c => c - 1
      | none => s.history.length - 1
    ({ s with cursor := some cursor }, s.history[cursor]?)

/-- Goes one line on in the history; after the newest the recall is over. -/
def next (s : Session) : Session × Option String :=
  match s.cursor with
  | none => (s, none)
  | some c =>
    if s.history.length ≤ c + 1 then ({ s with cursor := none }, none)
    else ({ s with cursor := some (c + 1) }, s.history[c + 1]?)

end Session

def Entry.kindName : Entry → String
  | .prompt _ => "prompt"
  | .output _ => "output"
  | .error _ => "error"
  | .system _ => "system"

def Entry.toJson (e : Entry) : Json :=
  match e with
  | .prompt command => .object [("kind", .text e.kindName), ("command", .text command)]
  | .output text | .error text | .system text =>
    .object [("kind", .text e.kindName), ("text", .text text)]

def Entry.reader : Reader Json Entry := do
  let kind ← .required "kind" Format.text?
  match kind with
  | "prompt" => return .prompt (← .required "command" Format.text?)
  | "output" => return .output (← .required "text" Format.text?)
  | "error" => return .error (← .required "text" Format.text?)
  | "system" => return .system (← .required "text" Format.text?)
  | _ => failure

/-- What is saved of a session. -/
structure Saved where
  transcript : List Entry
  history : List String
deriving Repr, DecidableEq

def Saved.toJson (s : Saved) : Json :=
  .object [("transcript", .list (s.transcript.map Entry.toJson)),
    ("history", .list (s.history.map Json.text))]

def Saved.reader : Reader Json Saved := do
  let transcript ← .required "transcript" (Format.listOf? Entry.reader.record?)
  let history ← .required "history" (Format.listOf? Format.text?)
  return { transcript, history }

/-- The name that sessions are kept under. -/
def sessionName : String := "app.terminal"

def sessionVersion : UInt32 := 1

namespace Session

def save (s : Session) (store : Store) (stamp : UInt64) : Except String Store :=
  let saved : Saved := { transcript := s.transcript, history := s.history }
  store.saveAs sessionName sessionVersion saved.toJson stamp

/-- Takes over what there is of a session in a source, if there is; the window and the last exit stay. -/
def restoreFrom (s : Session) (source : Store.Source) : Session × Bool :=
  let read := Saved.reader.record?
  match Store.loadFrom source sessionName sessionVersion read (Store.fromVersionZero read) with
  | .ok (some saved) =>
    ({ s with
       transcript := keepLast maxEntries saved.transcript
       history := keepLast maxHistory saved.history
       cursor := none }, true)
  | _ => (s, false)

def restore (s : Session) (store : Store) : Session × Bool := s.restoreFrom store.load

end Session

/-- A desk with one terminal. -/
structure Console where
  desk : Desk
  session : Session

namespace Console

def printed (line : String) : String := line ++ "\n"

/-- What entries print; lines are not echoed. -/
def printEntries (entries : List Entry) : String :=
  String.join ((entries.filter fun e => !e.isPrompt).map fun e => printed e.render)

/-- A console at the start, and what it prints then. -/
def start (config : Config Float) (now : UInt64) : Console × String :=
  let (desk, window) := (Desk.start config (.seeded now)).openWindow now "terminal" none
  let (desk, _, _) := desk.runEffects .discarding now
  let session := Session.new window
  ({ desk, session }, String.join (session.lines.map printed))

def feed (c : Console) (now : UInt64) (line : String) : Console × String :=
  let (session, desk, entries) := c.session.submit c.desk now line
  let (desk, _, _) := desk.runEffects .discarding now
  ({ desk, session }, printEntries entries)

/-- What a run prints, and its exit code. -/
structure Outcome where
  stdout : String
  code : Nat
deriving Repr, DecidableEq

/-- The exit code of a run whose input is not text. -/
def badInput : Nat := 1

/-- The exit code of a run without a configuration. -/
def badConfig : Nat := 2

/-- The lines of an input in bytes. A line feed ends a line, and a carriage return right before it
    belongs to the end; what follows the last line feed is a line if it is not empty. -/
def inputLines (input : List UInt8) : List (List UInt8) :=
  let withoutReturn (line : List UInt8) : List UInt8 :=
    if line.getLast? = some 13 then line.dropLast else line
  let parts := Text.parts (fun b => b == 10) input
  let last := match parts.getLast? with
    | none | some [] => []
    | some line => [line]
  parts.dropLast.map withoutReturn ++ last

/-- Carries out lines in bytes until one is not text, the line with a number at the time that the
    clock shows then. -/
def feedAll (clock : Nat → UInt64) : Nat → Console → List (List UInt8) → Console × Outcome
  | _, c, [] => (c, { stdout := "", code := 0 })
  | n, c, line :: rest =>
    match String.fromUTF8? ⟨line.toArray⟩ with
    | none => (c, { stdout := "", code := badInput })
    | some text =>
      let (c, shown) := c.feed (clock n) text
      let (c, outcome) := feedAll clock (n + 1) c rest
      (c, { outcome with stdout := shown ++ outcome.stdout })

/-- A run on an input, with a configuration or the fault that there is none. It begins at a time,
    and its lines are read at times of their own. -/
def runAt (config : Except ConfigFault (Config Float)) (begun : UInt64) (clock : Nat → UInt64)
    (input : List UInt8) : Outcome :=
  match config with
  | .error _ => { stdout := "", code := badConfig }
  | .ok config =>
    let (c, shown) := start config begun
    let (_, outcome) := feedAll clock 0 c (inputLines input)
    { outcome with stdout := shown ++ outcome.stdout }

/-- A run during which the clock stands still. -/
def run (config : Except ConfigFault (Config Float)) (now : UInt64) (input : List UInt8) :
    Outcome :=
  runAt config now (fun _ => now) input

end Console

end DesktopShell.Terminal
