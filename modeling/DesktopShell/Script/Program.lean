import DesktopShell.Number

/-!
# Scripts

The tokens of a script are words, numbers, texts and marks, each with the bytes it
covers in the source. Blanks are left out and nothing else is: what starts no longer
token is a mark of its own. Three forms are recognised among them wherever they stand:
a print, a window bound to a name, and a call on a name. Everything else is passed over,
so every source is a program. A program runs on a host, which knows the windows that are
there and does what calls ask for. One that prints does nothing else. The names are bound
before the first call, so a call never sees what an earlier one did.
-/
namespace DesktopShell.Script

/-- What a token is. -/
inductive Lexeme where
  | word (name : String)
  | number (digits : String)
  | quoted (value : String) (quote : Char)
  | mark (char : Char)
deriving Repr, DecidableEq

/-- A token and the bytes it covers, from `start` to before `stop`. -/
structure Token where
  lexeme : Lexeme
  start : Nat
  stop : Nat
deriving Repr, DecidableEq

/-- The number of bytes that a text takes. -/
def byteLength : List Char → Nat
  | [] => 0
  | c :: cs => c.utf8Size + byteLength cs

def startsWord (c : Char) : Bool := c.isAlpha || c == '_'

def continuesWord (c : Char) : Bool := c.isAlphanum || c == '_'

/-- The rest of a number after its first digit: digits, and a point if a digit follows it. -/
def numberTail (cs : List Char) : List Char :=
  let whole := cs.takeWhile Number.isDigit
  match cs.dropWhile Number.isDigit with
  | '.' :: rest =>
    match rest.takeWhile Number.isDigit with
    | [] => whole
    | fraction => whole ++ '.' :: fraction
  | _ => whole

/-- The token that a character begins, and how many of the characters after it belong to it. A
    quote begins a text if the same quote comes again. -/
def Lexeme.begin (c : Char) (cs : List Char) : Lexeme × Nat :=
  if startsWord c then
    let tail := cs.takeWhile continuesWord
    (.word (String.ofList (c :: tail)), tail.length)
  else if Number.isDigit c then
    let tail := numberTail cs
    (.number (String.ofList (c :: tail)), tail.length)
  else if (c = '"' ∨ c = '\'') ∧ c ∈ cs then
    let value := cs.takeWhile fun d => d != c
    (.quoted (String.ofList value) c, value.length + 1)
  else (.mark c, 0)

/-- The tokens of a text that begins at an offset of the source. -/
def tokensFrom (offset : Nat) : List Char → List Token
  | [] => []
  | c :: cs =>
    if Text.isBlank c then tokensFrom (offset + c.utf8Size) cs
    else
      let (lexeme, more) := Lexeme.begin c cs
      let stop := offset + byteLength (c :: cs.take more)
      ⟨lexeme, offset, stop⟩ :: tokensFrom stop (cs.drop more)
termination_by cs => cs.length

def tokens (source : List Char) : List Token := tokensFrom 0 source

/-- A text without its first bytes. -/
def dropBytes : Nat → List Char → List Char
  | 0, cs => cs
  | _, [] => []
  | n, c :: cs => dropBytes (n - c.utf8Size) cs

/-- The first bytes of a text. -/
def takeBytes : Nat → List Char → List Char
  | 0, _ => []
  | _, [] => []
  | n, c :: cs => c :: takeBytes (n - c.utf8Size) cs

/-- The part of a source from one byte to before another. -/
def slice (source : List Char) (start stop : Nat) : List Char :=
  takeBytes (stop - start) (dropBytes start source)

/-- What a print prints. -/
inductive Expr where
  | text (value : String)
  | number (value : Float)
  /-- Any other text, which stands for itself. -/
  | verbatim (value : String)
deriving Repr, DecidableEq

/-- The text between two quotes that a text begins and ends with. -/
def unquote? (quote : Char) : List Char → Option (List Char)
  | c :: rest => if c = quote ∧ rest.getLast? = some quote then some rest.dropLast else none
  | [] => none

/-- The expression that a text is. -/
def Expr.ofChars (raw : List Char) : Expr :=
  let cs := Text.trimmed raw
  match (unquote? '"' cs).or (unquote? '\'' cs) with
  | some value => .text (String.ofList value)
  | none =>
    match Number.ofChars? cs with
    | some x => .number x
    | none => .verbatim (String.ofList cs)

def Expr.render : Expr → String
  | .text value => value
  | .number x => Number.text x
  | .verbatim value => value

inductive Keyword where
  | localWord
  | varWord
deriving Repr, DecidableEq

def Keyword.name : Keyword → String
  | .localWord => "local"
  | .varWord => "var"

def Keyword.ofName? (s : String) : Option Keyword :=
  if s = "local" then some .localWord else if s = "var" then some .varWord else none

inductive Statement where
  | print (expr : Expr)
  | bind (keyword : Keyword) (name window : String)
  | call (receiver method : String) (args : List String)
deriving Repr, DecidableEq

def Token.isMark (t : Token) (c : Char) : Bool := t.lexeme = .mark c

/-- The tokens before the parenthesis that closes `depth` and one more open ones, that
    parenthesis, and the tokens after it. -/
def splitClose (depth : Nat) : List Token → Option (List Token × Token × List Token)
  | [] => none
  | t :: ts =>
    if t.isMark ')' then
      match depth with
      | 0 => some ([], t, ts)
      | outer + 1 => (splitClose outer ts).map fun (inner, close, rest) => (t :: inner, close, rest)
    else
      let depth := if t.isMark '(' then depth + 1 else depth
      (splitClose depth ts).map fun (inner, close, rest) => (t :: inner, close, rest)

/-- A call with what stands between its parentheses. -/
structure Call where
  receiver : String
  method : String
  /-- The tokens between the parentheses. -/
  inner : List Token
  /-- The source between the parentheses. -/
  text : List Char

/-- The number of tokens of a call: a word, a point, a word, a colon, two parentheses and what
    is between them. -/
def Call.size (c : Call) : Nat := c.inner.length + 6

def Call.isPrint (c : Call) : Bool := c.receiver = "console" && c.method = "log"

/-- The call that tokens begin with. -/
def call? (source : List Char) : List Token → Option Call
  | ⟨.word receiver, _, _⟩ :: ⟨.mark '.', _, _⟩ :: ⟨.word method, _, _⟩ :: ⟨.mark ':', _, _⟩
      :: ⟨.mark '(', _, opened⟩ :: rest =>
    (splitClose 0 rest).map fun (inner, close, _) =>
      { receiver, method, inner, text := slice source opened close.start }
  | _ => none

/-- Tokens begin with a print. -/
def startsPrint (source : List Char) (ts : List Token) : Bool :=
  match call? source ts with
  | some c => c.isPrint
  | none => false

/-- A print begins at one of the tokens. -/
def hasPrint (source : List Char) : List Token → Bool
  | [] => false
  | t :: ts => startsPrint source (t :: ts) || hasPrint source ts

/-- The arguments of a call: the texts between commas, trimmed, without the blank ones. -/
def arguments (text : List Char) : List String :=
  (((Text.parts (fun c => c == ',') text).map Text.trimmed).filter fun arg => !arg.isEmpty).map
    String.ofList

/-- The print that tokens begin with, and how many tokens it has. -/
def print? (source : List Char) (ts : List Token) : Option (Statement × Nat) :=
  match call? source ts with
  | some c => if c.isPrint then some (.print (.ofChars c.text), c.size) else none
  | none => none

/-- The binding that tokens begin with, and how many tokens it has. -/
def binding? : List Token → Option (Statement × Nat)
  | ⟨.word keyword, _, _⟩ :: ⟨.word name, _, _⟩ :: ⟨.mark '=', _, _⟩ :: ⟨.word "window", _, _⟩
      :: ⟨.mark '(', _, _⟩ :: ⟨.quoted window _, _, _⟩ :: ⟨.mark ')', _, _⟩ :: _ =>
    match Keyword.ofName? keyword with
    | some k => if window = "" then none else some (.bind k name window, 7)
    | none => none
  | _ => none

/-- The call on a name that tokens begin with, and how many tokens it has. A call with a print
    among its arguments is none, so that the print is found. -/
def callStatement? (source : List Char) (ts : List Token) : Option (Statement × Nat) :=
  match call? source ts with
  | some c =>
    if hasPrint source c.inner then none
    else some (.call c.receiver c.method (arguments c.text), c.size)
  | none => none

/-- The statement that tokens begin with, and how many tokens it has. -/
def statement? (source : List Char) (ts : List Token) : Option (Statement × Nat) :=
  (print? source ts).or ((binding? ts).or (callStatement? source ts))

/-- The statements that are found in tokens from left to right. -/
def statements (source : List Char) : List Token → List Statement
  | [] => []
  | t :: ts =>
    match statement? source (t :: ts) with
    | some (found, size) => found :: statements source (ts.drop (size - 1))
    | none => statements source ts
termination_by ts => ts.length

structure Program where
  statements : List Statement
deriving Repr, DecidableEq

namespace Program

def ofSource (source : String) : Program := ⟨Script.statements source.toList (tokens source.toList)⟩

def prints (p : Program) : List Expr :=
  p.statements.filterMap fun | .print e => some e | _ => none

/-- The names that a program binds, with the windows they are bound to. -/
def bindings (p : Program) : List (String × String) :=
  p.statements.filterMap fun | .bind _ name window => some (name, window) | _ => none

def calls (p : Program) : List (String × String × List String) :=
  p.statements.filterMap fun
    | .call receiver method args => some (receiver, method, args)
    | _ => none

def hasPrint (p : Program) : Bool := !p.prints.isEmpty

end Program

/-- What a call does to a window. -/
inductive Deed where
  | move (window : String) (x y : Float)
  | resize (window : String) (width height : Float)
  | close (window : String)
  | focus (window : String)
deriving Repr, DecidableEq

/-- What programs run on. -/
structure Host (σ : Type) where
  /-- The host has a window that is not closed. -/
  isLive : σ → String → Bool
  perform : σ → Deed → σ

/-- The answer of a line that has run and has nothing of its own to show. -/
def acknowledgement : String := "(command executed)"

/-- Names with the windows they are bound to, the last binding first; a binding to a window that
    is not there binds to none. -/
abbrev Names := List (String × Option String)

/-- The names that bindings give on a host. -/
def bindNames (live : String → Bool) (bindings : List (String × String)) : Names :=
  bindings.foldl (fun names (name, window) =>
    (name, if live window then some window else none) :: names) []

def Names.window? (names : Names) (name : String) : Option String := (names.lookup name).join

/-- The first two arguments as numbers. -/
def pair? : List String → Option (Float × Float)
  | first :: second :: _ => do
    let x ← Number.ofText? first
    let y ← Number.ofText? second
    return (x, y)
  | _ => none

/-- What a call does to its window, if anything, and what it shows, if anything. A call for a
    place or a size does nothing without two numbers. -/
def respond (window method : String) (args : List String) : Option Deed × Option String :=
  match method with
  | "move" =>
    match pair? args with
    | some (x, y) =>
      let place := "(" ++ Number.text x ++ ", " ++ Number.text y ++ ")"
      (some (.move window x y), some ("Moved window " ++ window ++ " to " ++ place))
    | none => (none, none)
  | "resize" =>
    match pair? args with
    | some (width, height) =>
      let size := Number.text width ++ "x" ++ Number.text height
      (some (.resize window width height), some ("Resized window " ++ window ++ " to " ++ size))
    | none => (none, none)
  | "close" => (some (.close window), some ("Closed window " ++ window))
  | "focus" => (some (.focus window), some ("Focused window " ++ window))
  | other => (none, some ("Unknown method: " ++ other))

def runCall {σ : Type} (host : Host σ) (names : Names) (s : σ)
    (call : String × String × List String) : σ × Option String :=
  match names.window? call.1 with
  | none => (s, some ("Error: Window variable '" ++ call.1 ++ "' not found"))
  | some window =>
    match respond window call.2.1 call.2.2 with
    | (some deed, line) => (host.perform s deed, line)
    | (none, line) => (s, line)

/-- Runs calls one after another and collects what they show. -/
def runCalls {σ : Type} (host : Host σ) (names : Names) (s : σ) :
    List (String × String × List String) → σ × List String
  | [] => (s, [])
  | call :: rest =>
    let (next, line) := runCall host names s call
    let (last, lines) := runCalls host names next rest
    (last, line.toList ++ lines)

def output (lines : List String) : String := Text.trim (Text.unlines lines)

def run {σ : Type} (host : Host σ) (s : σ) (program : Program) : σ × String :=
  if program.hasPrint then (s, output (program.prints.map Expr.render))
  else
    let names := bindNames (host.isLive s) program.bindings
    let (last, lines) := runCalls host names s program.calls
    let shown := output lines
    (last, if shown = "" then acknowledgement else shown)

def evaluate {σ : Type} (host : Host σ) (s : σ) (source : String) : σ × String :=
  run host s (Program.ofSource source)

/-- A host that knows some windows for good and only writes down what it is asked to do. -/
structure Rehearsal where
  live : List String
  deeds : List Deed

def Rehearsal.host : Host Rehearsal :=
  { isLive := fun r id => r.live.contains id
    perform := fun r deed => { r with deeds := r.deeds ++ [deed] } }

end DesktopShell.Script
