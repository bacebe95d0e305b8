import DesktopShell.Script.Program

/-!
# Scans by positions

A script can be read by the positions of its tokens and of its bytes. Some steps of such
a reading make sense only where something holds that was found out elsewhere: a
parenthesis is open, a token comes before another one, a byte begins a character. Here
each of these steps looks for that first, and it is a fault to take it elsewhere.
-/
namespace DesktopShell.Script

/-- A step of a reading by positions that is taken where it makes no sense. -/
inductive Fault where
  /-- The parenthesis is looked for that closes a token other than an opening parenthesis. -/
  | unopened
  /-- A parenthesis is closed while none is open. -/
  | unbalanced
  /-- The text between two tokens is asked for that are not there in this order. -/
  | disordered
  /-- A text is cut back to front, beyond its end or inside a character. -/
  | cut
  /-- A statement ends where it begins or before. -/
  | stalled
deriving Repr, DecidableEq

/-- No character of a text lies on both sides of a number of its bytes. -/
def isBoundary : List Char → Nat → Bool
  | _, 0 => true
  | [], _ + 1 => false
  | c :: cs, n + 1 => decide (c.utf8Size ≤ n + 1) && isBoundary cs (n + 1 - c.utf8Size)

/-- The part of a text between two of its bytes. -/
def cut (text : List Char) (start stop : Nat) : Except Fault (List Char) :=
  if start ≤ stop ∧ isBoundary text start ∧ isBoundary text stop then .ok (slice text start stop)
  else .error .cut

namespace Guarded

/-- The text between two quotes at its ends, which is all but its first and its last byte. -/
def unquote (quote : Char) (text : List Char) : Except Fault (Option (List Char)) :=
  if 2 ≤ byteLength text ∧ text.head? = some quote ∧ text.getLast? = some quote then
    (cut text 1 (byteLength text - 1)).map some
  else .ok none

def expr (raw : List Char) : Except Fault Expr := do
  let text := Text.trimmed raw
  match ← unquote '"' text with
  | some value => return .text (String.ofList value)
  | none =>
    match ← unquote '\'' text with
    | some value => return .text (String.ofList value)
    | none =>
      match Number.ofChars? text with
      | some x => return .number x
      | none => return .verbatim (String.ofList text)

def wordAt? (ts : List Token) (i : Nat) : Option String :=
  match ts[i]? with
  | some ⟨.word name, _, _⟩ => some name
  | _ => none

def textAt? (ts : List Token) (i : Nat) : Option String :=
  match ts[i]? with
  | some ⟨.quoted value _, _, _⟩ => some value
  | _ => none

def hasMark (ts : List Token) (i : Nat) (c : Char) : Bool :=
  match ts[i]? with
  | some t => t.isMark c
  | none => false

/-- The position where the last of `depth` open parentheses is closed, looked for from a position on. -/
def closeFrom (depth position : Nat) : List Token → Except Fault (Option Nat)
  | [] => .ok none
  | t :: ts =>
    if t.isMark '(' then closeFrom (depth + 1) (position + 1) ts
    else if t.isMark ')' then
      match depth with
      | 0 => .error .unbalanced
      | 1 => .ok (some position)
      | outer + 2 => closeFrom (outer + 1) (position + 1) ts
    else closeFrom depth (position + 1) ts

/-- The position of the parenthesis that closes the one at a position. -/
def close? (ts : List Token) (opening : Nat) : Except Fault (Option Nat) :=
  if hasMark ts opening '(' then closeFrom 0 opening (ts.drop opening) else .error .unopened

/-- The source between two tokens. -/
def between (source : List Char) (ts : List Token) (opening closing : Nat) : Except Fault (List Char) :=
  match ts[opening]?, ts[closing]? with
  | some first, some last =>
    if opening < closing then cut source first.stop last.start else .error .disordered
  | _, _ => .error .disordered

-- A statement that is found at a position comes with the position after its last token.

/-- The receiver and the method of a call, and where its parenthesis opens. -/
def opening? (ts : List Token) (i : Nat) : Option (String × String × Nat) :=
  match wordAt? ts i, wordAt? ts (i + 2) with
  | some receiver, some method =>
    if hasMark ts (i + 1) '.' && hasMark ts (i + 3) ':' && hasMark ts (i + 4) '(' then
      some (receiver, method, i + 4)
    else none
  | _, _ => none

def print (source : List Char) (ts : List Token) (i : Nat) : Except Fault (Option (Statement × Nat)) :=
  match opening? ts i with
  | none => .ok none
  | some (receiver, method, opening) =>
    if receiver = "console" && method = "log" then do
      match ← close? ts opening with
      | none => return none
      | some closing =>
        let text ← between source ts opening closing
        let e ← expr text
        return some (.print e, closing + 1)
    else .ok none

def bind? (ts : List Token) (i : Nat) : Option (Statement × Nat) := do
  let keyword ← Keyword.ofName? (← wordAt? ts i)
  let name ← wordAt? ts (i + 1)
  let callee ← wordAt? ts (i + 3)
  let window ← textAt? ts (i + 5)
  if hasMark ts (i + 2) '=' && callee = "window" && hasMark ts (i + 4) '(' && hasMark ts (i + 6) ')' &&
      window ≠ "" then
    some (.bind keyword name window, i + 7)
  else none

/-- A print begins at one of `count` positions, of which those after the first print are not looked at. -/
def printAmong (source : List Char) (ts : List Token) (first : Nat) : Nat → Except Fault Bool
  | 0 => .ok false
  | count + 1 => do
    match ← print source ts first with
    | some _ => return true
    | none => printAmong source ts (first + 1) count

def call (source : List Char) (ts : List Token) (i : Nat) : Except Fault (Option (Statement × Nat)) :=
  match opening? ts i with
  | none => .ok none
  | some (receiver, method, opening) => do
    match ← close? ts opening with
    | none => return none
    | some closing =>
      if ← printAmong source ts (opening + 1) (closing - (opening + 1)) then return none
      else
        let text ← between source ts opening closing
        return some (.call receiver method (arguments text), closing + 1)

def statement (source : List Char) (ts : List Token) (i : Nat) : Except Fault (Option (Statement × Nat)) := do
  match ← print source ts i with
  | some found => return some found
  | none =>
    match bind? ts i with
    | some found => return some found
    | none => call source ts i

/-- A statement with the positions of its first token and of the one after its last. -/
structure Found where
  statement : Statement
  first : Nat
  next : Nat
deriving Repr, DecidableEq

/-- The statements that are found from a position on. -/
def scan (source : List Char) (ts : List Token) (i : Nat) : Except Fault (List Found) :=
  if i < ts.length then
    match statement source ts i with
    | .error fault => .error fault
    | .ok none => scan source ts (i + 1)
    | .ok (some (found, next)) =>
      if i < next then (scan source ts next).map fun later => ⟨found, i, next⟩ :: later
      else .error .stalled
  else .ok []
termination_by ts.length - i

end Guarded

end DesktopShell.Script
