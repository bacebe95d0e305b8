import DesktopShell.Document
import DesktopShell.Files.Tree

/-!
# The shell

What a line of a terminal asks for: a built-in command with its argument, or, if
it is none, a script. A command word without the argument it needs is a script too.
A line that cannot be carried out fails with a code and a message and leaves an exit
status. The registry holds what the help says of each command, in the order in which
the commands were first registered; registering one again changes what is said of it
and not its place.
-/
namespace DesktopShell.Shell

/-- A built-in command with its argument. -/
inductive Builtin where
  | help
  | clear
  | windows
  | apps
  | ls (path : String)
  | cat (path : String)
  | mkdir (name : String)
  | touch (name : String)
deriving Repr, DecidableEq

def Builtin.word : Builtin → String
  | .help => "help"
  | .clear => "clear"
  | .windows => "windows"
  | .apps => "apps"
  | .ls _ => "ls"
  | .cat _ => "cat"
  | .mkdir _ => "mkdir"
  | .touch _ => "touch"

/-- What a line asks for. -/
inductive Command where
  | empty
  | builtin (command : Builtin)
  | script (source : String)
deriving Repr, DecidableEq

def defaultPath : String := "/"

/-- What follows a text at the start of a line. -/
def after? : List Char → List Char → Option (List Char)
  | [], cs => some cs
  | _, [] => none
  | w :: ws, c :: cs => if w = c then after? ws cs else none

/-- The argument of a command word: what follows the word and a space, trimmed, if anything. -/
def argument? (word : String) (cs : List Char) : Option String :=
  match after? (word.toList ++ [' ']) cs with
  | some rest =>
    match Text.trimmed rest with
    | [] => none
    | arg => some (String.ofList arg)
  | none => none

/-- The path of a listing: the first word after the command word and a space. -/
def listing? (cs : List Char) : Option String :=
  (after? "ls ".toList cs).map fun rest =>
    match Text.firstWord? rest with
    | some path => String.ofList path
    | none => defaultPath

/-- The command that needs no argument. -/
def bare? (line : String) : Option Builtin :=
  match line with
  | "help" => some .help
  | "clear" => some .clear
  | "windows" => some .windows
  | "apps" => some .apps
  | "ls" => some (.ls defaultPath)
  | _ => none

def builtin? (cs : List Char) : Option Builtin :=
  (bare? (String.ofList cs)).or
    (((listing? cs).map Builtin.ls).or
      (((argument? "cat" cs).map Builtin.cat).or
        (((argument? "mkdir" cs).map Builtin.mkdir).or ((argument? "touch" cs).map Builtin.touch))))

def Command.ofLine (line : String) : Command :=
  match Text.trimmed line.toList with
  | [] => .empty
  | cs =>
    match builtin? cs with
    | some command => .builtin command
    | none => .script (String.ofList cs)

/-- What sort of failure it is. -/
inductive FailureKind where
  | usage
  | notFound
  | conflict
  | internal
deriving Repr, DecidableEq

namespace FailureKind

def name : FailureKind → String
  | .usage => "usage"
  | .notFound => "not-found"
  | .conflict => "conflict"
  | .internal => "internal"

def ofName? (s : String) : Option FailureKind :=
  [usage, notFound, conflict, internal].find? fun kind => kind.name = s

def exitCode : FailureKind → Nat
  | .usage => 2
  | .notFound => 3
  | .conflict => 4
  | .internal => 5

end FailureKind

/-- Why a line could not be carried out. -/
structure Failure where
  kind : FailureKind
  message : String
deriving Repr, DecidableEq

def Failure.display (f : Failure) : String := "Error: " ++ f.message

/-- The failure that a fault of the file tree is. -/
def Failure.ofFault (fault : Files.Fault) : Failure :=
  let kind : FailureKind := match fault with
    | .notFound _ => .notFound
    | .alreadyExists _ => .conflict
    | _ => .usage
  { kind, message := fault.message }

/-- How a line ended: a code, and a message if it failed. -/
structure Exit where
  code : Nat
  message : Option String
deriving Repr, DecidableEq

def Exit.success : Exit := { code := 0, message := none }

def Exit.ofFailure (f : Failure) : Exit := { code := f.kind.exitCode, message := some f.message }

structure Argument where
  name : String
  summary : String
  required : Bool
deriving Repr, DecidableEq

structure Example where
  command : String
  summary : String
deriving Repr, DecidableEq

structure Help where
  summary : String
  usage : String
  examples : List Example
deriving Repr, DecidableEq

structure Descriptor where
  name : String
  args : List Argument
  help : Help
deriving Repr, DecidableEq

structure Registry where
  /-- The names of commands in the order in which they were first registered. -/
  order : List String
  /-- What is registered, in the order of names. -/
  entries : List Descriptor
deriving Repr, DecidableEq

namespace Registry

def empty : Registry := { order := [], entries := [] }

/-- What is registered under a name. -/
def descriptor? (r : Registry) (name : String) : Option Descriptor := r.entries.find? fun d => d.name = name

/-- The registry with a command, which has its place in the listing when it is registered for the first time. -/
def register (r : Registry) (d : Descriptor) : Registry :=
  { order := if (r.descriptor? d.name).isSome then r.order else r.order ++ [d.name]
    entries := insertByKey Descriptor.name d r.entries }

/-- The commands in the order of the listing. -/
def descriptors (r : Registry) : List Descriptor := r.order.filterMap r.descriptor?

end Registry

def helpLine (usage summary : String) : String := "  " ++ usage ++ " - " ++ summary

/-- The forms of scripts with what they do. -/
def scriptForms : List (String × String) :=
  [("local <name> = window(\"<id>\")", "Bind a window to a variable"),
   ("console.log:(<message>)", "Print a message"),
   ("<name>.move:(<x>, <y>)", "Move window to position"),
   ("<name>.resize:(<width>, <height>)", "Resize window"),
   ("<name>.close:()", "Close window"),
   ("<name>.focus:()", "Focus window")]

/-- The help: every command that is registered, then the forms of scripts. -/
def Registry.helpText (r : Registry) : String :=
  Text.unlines
    ("Available commands:" :: (r.descriptors.map fun d => helpLine d.help.usage d.help.summary)
      ++ "" :: "Fluxo scripting:" :: scriptForms.map fun form => helpLine form.1 form.2)

/-- A bracket around an argument in a usage. -/
def isBracket (c : Char) : Bool := c == '<' || c == '>' || c == '[' || c == ']'

/-- A usage as an example, without the brackets around its arguments. -/
def withoutBrackets (usage : String) : String :=
  String.ofList (usage.toList.filter fun c => !isBracket c)

/-- A command whose example is its usage. -/
def describe (name usage summary : String) (args : List Argument) : Descriptor :=
  { name, args, help := { summary, usage, examples := [⟨withoutBrackets usage, summary⟩] } }

def builtins : List Descriptor :=
  [describe "help" "help" "Show this help message" [],
   describe "clear" "clear" "Clear the terminal" [],
   describe "windows" "windows" "List all open windows" [],
   describe "apps" "apps" "List all installed apps" [],
   describe "ls" "ls [path]" "List files and folders" [⟨"path", "folder or file to list", false⟩],
   describe "cat" "cat <file>" "Display file contents" [⟨"file", "file path", true⟩],
   describe "mkdir" "mkdir <name>" "Create a folder" [⟨"name", "folder name", true⟩],
   describe "touch" "touch <name>" "Create a file" [⟨"name", "file name", true⟩]]

def Registry.builtin : Registry := builtins.foldl Registry.register Registry.empty

def Argument.reader : Reader Json Argument := do
  let name ← .required "name" Format.text?
  let summary ← .required "summary" Format.text?
  let required ← .required "required" Format.flag?
  return { name, summary, required }

def Example.reader : Reader Json Example := do
  let command ← .required "command" Format.text?
  let summary ← .required "summary" Format.text?
  return { command, summary }

def Help.reader : Reader Json Help := do
  let summary ← .required "summary" Format.text?
  let usage ← .required "usage" Format.text?
  let examples ← .required "examples" (Format.listOf? Example.reader.record?)
  return { summary, usage, examples }

def Descriptor.reader : Reader Json Descriptor := do
  let name ← .required "name" Format.text?
  let args ← .required "args" (Format.listOf? Argument.reader.record?)
  let help ← .required "help" Help.reader.record?
  return { name, args, help }

def Descriptor.toJson (d : Descriptor) : Json :=
  let arg (a : Argument) : Json :=
    .object [("name", .text a.name), ("summary", .text a.summary), ("required", .flag a.required)]
  let sample (e : Example) : Json :=
    .object [("command", .text e.command), ("summary", .text e.summary)]
  .object [("name", .text d.name), ("args", .list (d.args.map arg)),
    ("help", .object [("summary", .text d.help.summary), ("usage", .text d.help.usage),
      ("examples", .list (d.help.examples.map sample))])]

end DesktopShell.Shell
