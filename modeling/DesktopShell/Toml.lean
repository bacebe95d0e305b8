import DesktopShell.Document
import DesktopShell.Number

/-!
# TOML documents

A document is a row of lines, headers and keys with their values, and builds up one
table. A header opens a table for the pairs that follow it, a doubled header one more
table of a list. No key is set twice, and a table that is finished is not opened again:
a table remembers how it came about, because that decides whether later lines may still
add to it.

Flags, whole numbers, floats, dates and times are each read from the characters that make
up the whole of them. Texts between double quotes know escapes, those between single quotes
do not; either kind may be written with tripled quotes over several lines, where a line
break right after the opening quotes is dropped and every other reads as a line feed. Lists
and braces nest to a limited depth, and a dotted key has a limited number of parts.
-/
namespace DesktopShell

/-- How a table came about. -/
inductive TableOrigin where
  /-- It has a header of its own. -/
  | header
  /-- It lies on the way to a table with a header. -/
  | implied
  /-- It lies on the way to a dotted key. -/
  | dotted
  /-- It was written in braces. -/
  | inline
deriving Repr, DecidableEq

inductive Toml where
  | text (value : String)
  | whole (value : Int)
  | float (value : Float)
  | flag (value : Bool)
  /-- A date, a time, or both; which one is of no use here. -/
  | moment
  | list (items : List Toml)
  | table (origin : TableOrigin) (fields : List (String × Toml))
  /-- Tables that were written under one doubled header. -/
  | tables (items : List (List (String × Toml)))

namespace Toml

def isEmpty : Toml → Bool
  | .list items => items.isEmpty
  | .table _ fields => fields.isEmpty
  | _ => false

/-- The name of a choice: a text, or a table whose only key is the name of nothing more. -/
def choiceName? : Toml → Option String
  | .text s => some s
  | .table _ [(name, value)] => if value.isEmpty then some name else none
  | _ => none

/-- The items of a list, those under doubled headers included. -/
def items? : Toml → Option (List Toml)
  | .list items => some items
  | .tables items => some (items.map (.table .header))
  | _ => none

/-- The fields of a record: those of a table, or the items of a list. A moment has none. -/
def recordFields? : Toml → Option (Fields Toml)
  | .table _ fields => some (.named fields)
  | .moment => some (.named [])
  | value => value.items?.map .listed

def number? : Toml → Option Float
  | .whole (.ofNat n) => some (Float.ofScientific n false 0)
  | .whole (.negSucc n) => some (-Float.ofScientific (n + 1) false 0)
  | .float x => some x
  | _ => none

end Toml

instance : Format Toml where
  text? | .text s => some s | _ => none
  flag? | .flag b => some b | _ => none
  whole? | .whole n => some n | _ => none
  float? := Toml.number?
  list? := Toml.items?
  fields? := Toml.recordFields?
  choice? := Toml.choiceName?
  isNull _ := false
  allowsSpare := true

end DesktopShell

namespace DesktopShell.Toml

/-- The fields of a table in the making. -/
abbrev Table := List (String × Toml)

inductive Line where
  | header (doubled : Bool) (key : List String)
  | pair (key : List String) (value : Toml)

/-- Fields with the value of a key that is there replaced. -/
def replace (key : String) (value : Toml) (fields : Table) : Table :=
  fields.map fun field => if field.1 = key then (key, value) else field

/-- Changes the table that a key leads to. Tables on the way that are missing are made. A dotted
    key goes through no table that has a header or braces; a list of tables is entered at its
    last one. -/
def descend (dotted : Bool) (act : TableOrigin → Table → Option Table) :
    List String → TableOrigin → Table → Option Table
  | [], origin, fields => act origin fields
  | key :: path, _, fields =>
    match fields.lookup key with
    | none =>
      let origin : TableOrigin := if dotted then .dotted else .implied
      (descend dotted act path origin []).map fun inner => fields ++ [(key, .table origin inner)]
    | some (.table origin inner) =>
      if origin = .inline ∨ (dotted ∧ origin = .header) then none
      else
        (descend dotted act path origin inner).map fun inner =>
          replace key (.table origin inner) fields
    | some (.tables items) =>
      match items.getLast? with
      | none => none
      | some last =>
        (descend dotted act path .header last).map fun inner =>
          replace key (.tables (items.dropLast ++ [inner])) fields
    | some _ => none

/-- A key as the way to its last part and that part. -/
def splitKey? (key : List String) : Option (List String × String) :=
  key.getLast?.map fun last => (key.dropLast, last)

/-- Sets a key of a table that is reached by a way of dotted parts. The table at the end of a way
    has to be one that dotted keys made. -/
def setNew (onWay : Bool) (key : String) (value : Toml) (origin : TableOrigin) (fields : Table) :
    Option Table :=
  if onWay && origin ≠ .dotted then none
  else if (fields.lookup key).isSome then none
  else some (fields ++ [(key, value)])

/-- Adds a pair to a table. -/
def addPair (origin : TableOrigin) (fields : Table) (key : List String) (value : Toml) :
    Option Table :=
  match splitKey? key with
  | none => none
  | some (path, last) => descend true (setNew (!path.isEmpty) last value) path origin fields

def addPairs : List (List String × Toml) → Table → Option Table
  | [], fields => some fields
  | (key, value) :: rest, fields =>
    (addPair .inline fields key value).bind fun more => addPairs rest more

/-- Opens a table under its last key: a new one, or one that only lies on the way to others. -/
def openTable (key : String) (_ : TableOrigin) (fields : Table) : Option Table :=
  match fields.lookup key with
  | none => some (fields ++ [(key, .table .header [])])
  | some (.table .implied inner) => some (replace key (.table .header inner) fields)
  | some _ => none

/-- Opens one more table of the list under a last key. -/
def openItem (key : String) (_ : TableOrigin) (fields : Table) : Option Table :=
  match fields.lookup key with
  | none => some (fields ++ [(key, .tables [[]])])
  | some (.tables items) => some (replace key (.tables (items ++ [[]])) fields)
  | some _ => none

/-- A document in the making: its table, and the header that pairs belong to. -/
structure Draft where
  table : Table
  header : List String

def Draft.add (draft : Draft) : Line → Option Draft
  | .header doubled key =>
    match splitKey? key with
    | none => none
    | some (path, last) =>
      let act := if doubled then openItem last else openTable last
      (descend false act path .header draft.table).map fun table => ⟨table, key⟩
  | .pair key value =>
    let act := fun origin fields => addPair origin fields key value
    (descend false act draft.header .header draft.table).map fun table => ⟨table, draft.header⟩

/-- The table that lines build up. -/
def ofLines? (lines : List Line) : Option Toml :=
  (lines.foldlM Draft.add ⟨[], []⟩).map fun draft => .table .header draft.table

/-- A row of digits in which single underscores may stand between digits. -/
def digitRow? (isDigit : Char → Bool) (cs : List Char) : Option (List Char) :=
  let groups := Text.parts (fun c => c == '_') cs
  if groups.all fun group => !group.isEmpty && group.all isDigit then some groups.flatten else none

/-- A decimal row that has no zero in front of other digits. -/
def decimalRow? (cs : List Char) : Option (List Char) :=
  match cs with
  | '0' :: _ :: _ => none
  | _ => digitRow? Number.isDigit cs

/-- A whole number has 64 bits with a sign. -/
def wholeNumber? (n : Int) : Option Toml :=
  let bound : Int := (Nat.pow 2 63 : Nat)
  if -bound ≤ n ∧ n < bound then some (.whole n) else none

/-- The value of a row of digits in a base. -/
def rowValue? (base : Nat) (cs : List Char) : Option Int := do
  let digits ← digitRow? (fun c => (Number.appendDigit? base 0 c).isSome) cs
  let n ← Number.ofDigits? base digits
  return n

/-- Reads a whole number; only decimal ones may have a sign. -/
def readWhole? : List Char → Option Toml
  | '0' :: 'x' :: digits => (rowValue? 16 digits).bind wholeNumber?
  | '0' :: 'o' :: digits => (rowValue? 8 digits).bind wholeNumber?
  | '0' :: 'b' :: digits => (rowValue? 2 digits).bind wholeNumber?
  | cs => do
    let (negative, unsigned) := Number.splitSign cs
    let digits ← decimalRow? unsigned
    let n ← Number.ofDigits? 10 digits
    wholeNumber? (if negative then -(n : Int) else n)

/-- Reads the power of ten after the letter of an exponent. -/
def readPower? (cs : List Char) : Option Int := do
  let (negative, unsigned) := Number.splitSign cs
  let digits ← digitRow? Number.isDigit unsigned
  let n ← Number.ofDigits? 10 digits
  return if negative then -(n : Int) else n

/-- The characters before and after the first one of a kind, when there is one. -/
def splitFirst? (p : Char → Bool) (cs : List Char) : Option (List Char × List Char) :=
  match cs.dropWhile fun c => !p c with
  | [] => none
  | _ :: after => some (cs.takeWhile fun c => !p c, after)

/-- Reads a float with a point or an exponent, and refuses one too large to be written. -/
def readDecimal? (cs : List Char) : Option Toml := do
  let (negative, unsigned) := Number.splitSign cs
  let exponent := splitFirst? (fun c => c == 'e' || c == 'E') unsigned
  let power ← match exponent with
    | some (_, digits) => readPower? digits
    | none => some 0
  let mantissa := match exponent with
    | some (before, _) => before
    | none => unsigned
  let point := splitFirst? (fun c => c == '.') mantissa
  let fraction ← match point with
    | some (_, digits) => digitRow? Number.isDigit digits
    | none => if exponent.isSome then some [] else none
  let whole ← decimalRow? (match point with
    | some (before, _) => before
    | none => mantissa)
  let literal : Number.Literal :=
    ⟨negative, Number.digitsValue (whole ++ fraction), power - fraction.length⟩
  let value := literal.value
  if value.isInf && !negative then none else some (.float value)

/-- Reads the floats that have names. -/
def readNamedFloat? (cs : List Char) : Option Toml :=
  let (negative, name) := Number.splitSign cs
  let sign (x : Float) : Float := if negative then -x else x
  if name = "inf".toList then some (.float (sign (1.0 / 0.0)))
  else if name = "nan".toList then some (.float (sign (0.0 / 0.0)))
  else none

/-- The number that two digits give, when it is at most a bound. -/
def twoDigits? (bound : Nat) (a b : Char) : Option Nat :=
  match Number.ofDigits? 10 [a, b] with
  | some n => if n ≤ bound then some n else none
  | none => none

def daysIn (year month : Nat) : Nat :=
  let leap := year % 4 == 0 && (year % 100 != 0 || year % 400 == 0)
  if month = 2 then (if leap then 29 else 28)
  else if month = 4 ∨ month = 6 ∨ month = 9 ∨ month = 11 then 30 else 31

/-- What follows a date at the start of a text. -/
def afterDate? : List Char → Option (List Char)
  | y1 :: y2 :: y3 :: y4 :: '-' :: m1 :: m2 :: '-' :: d1 :: d2 :: rest => do
    let year ← Number.ofDigits? 10 [y1, y2, y3, y4]
    let month ← twoDigits? 12 m1 m2
    let day ← twoDigits? (daysIn year month) d1 d2
    if month = 0 ∨ day = 0 then none else some rest
  | _ => none

/-- What follows a time of day at the start of a text. -/
def afterTime? : List Char → Option (List Char)
  | h1 :: h2 :: ':' :: m1 :: m2 :: ':' :: s1 :: s2 :: rest => do
    let _ ← twoDigits? 23 h1 h2
    let _ ← twoDigits? 59 m1 m2
    let _ ← twoDigits? 60 s1 s2
    match rest with
    | '.' :: fraction =>
      if (fraction.takeWhile Number.isDigit).isEmpty then none
      else some (fraction.dropWhile Number.isDigit)
    | _ => some rest
  | _ => none

/-- The text is nothing or an offset from universal time. -/
def isOffset : List Char → Bool
  | [] => true
  | [c] => c == 'Z' || c == 'z'
  | [sign, h1, h2, ':', m1, m2] =>
    (sign == '+' || sign == '-') && (twoDigits? 23 h1 h2).isSome && (twoDigits? 59 m1 m2).isSome
  | _ => false

/-- The text is a time of day, with an offset or without. -/
def isZonedTime (cs : List Char) : Bool :=
  match afterTime? cs with
  | some rest => isOffset rest
  | none => false

def isDate (cs : List Char) : Bool := afterDate? cs == some []

/-- The text is a time of day, a date, or a date and a time with the letter between them. -/
def isMoment (cs : List Char) : Bool :=
  match afterDate? cs with
  | some [] => true
  | some (c :: time) => (c == 'T' || c == 't') && isZonedTime time
  | none => afterTime? cs == some []

/-- Reads a scalar from all of its characters. -/
def readScalar? (cs : List Char) : Option Toml :=
  if cs = "true".toList then some (.flag true)
  else if cs = "false".toList then some (.flag false)
  else if isMoment cs then some .moment
  else (readNamedFloat? cs).or ((readWhole? cs).or (readDecimal? cs))

/-- A character that may stand in a text or a comment: a tab, or no control character. -/
def isTextChar (c : Char) : Bool := c == '\t' || (decide (' ' ≤ c) && c != '\x7f')

/-- What is read from the front of a text, and the rest of the text. -/
abbrev Scan (α : Type) := List Char → Option (α × List Char)

/-- A scanned text with one more character in front. -/
def push (c : Char) (scanned : Option (List Char × List Char)) : Option (List Char × List Char) :=
  scanned.map fun (cs, rest) => (c :: cs, rest)

/-- The character that hexadecimal digits give; surrogates are no characters. -/
def scalar? (digits : List Char) : Option Char :=
  match Number.ofDigits? 16 digits with
  | some n => if n.isValidChar then some (Char.ofNat n) else none
  | none => none

/-- The character that a letter gives after a backslash. -/
def escaped? : Char → Option Char
  | 'b' => some '\x08'
  | 't' => some '\t'
  | 'n' => some '\n'
  | 'f' => some '\x0c'
  | 'r' => some '\r'
  | '"' => some '"'
  | '\\' => some '\\'
  | _ => none

/-- The line ends after spaces and tabs at most. -/
def endsLine (cs : List Char) : Bool :=
  match cs.dropWhile fun c => c == ' ' || c == '\t' with
  | '\n' :: _ => true
  | '\r' :: '\n' :: _ => true
  | _ => false

/-- The quotes, two at most, that stand before the closing ones and belong to the text. -/
def closing (quote : Char) : List Char → List Char × List Char
  | a :: b :: rest =>
    if a = quote then if b = quote then ([a, b], rest) else ([a], b :: rest) else ([], a :: b :: rest)
  | [a] => if a = quote then ([a], []) else ([], [a])
  | [] => ([], [])

/-- A text between double quotes, from behind the opening ones. After a backslash at the end of
    a line, blanks and line breaks are skipped until the text goes on. -/
def basicBody (long skipping : Bool) (cs : List Char) : Option (List Char × List Char) :=
  match cs with
  | [] => none
  | '\r' :: '\n' :: rest =>
    if !long then none
    else if skipping then basicBody long true rest
    else push '\n' (basicBody long false rest)
  | '"' :: '"' :: '"' :: rest =>
    if long then some (closing '"' rest) else some ([], '"' :: '"' :: rest)
  | '"' :: rest => if long then push '"' (basicBody long false rest) else some ([], rest)
  | '\\' :: 'u' :: a :: b :: c :: d :: rest =>
    match scalar? [a, b, c, d] with
    | some char => push char (basicBody long false rest)
    | none => none
  | '\\' :: 'U' :: a :: b :: c :: d :: e :: f :: g :: h :: rest =>
    match scalar? [a, b, c, d, e, f, g, h] with
    | some char => push char (basicBody long false rest)
    | none => none
  | '\\' :: c :: rest =>
    if long && endsLine (c :: rest) then basicBody long true (c :: rest)
    else
      match escaped? c with
      | some char => push char (basicBody long false rest)
      | none => none
  | c :: rest =>
    if skipping && (c == ' ' || c == '\t' || c == '\n') then basicBody long true rest
    else if isTextChar c || (long && c == '\n') then push c (basicBody long false rest)
    else none

/-- A text between single quotes, from behind the opening ones. -/
def literalBody (long : Bool) (cs : List Char) : Option (List Char × List Char) :=
  match cs with
  | [] => none
  | '\r' :: '\n' :: rest => if long then push '\n' (literalBody long rest) else none
  | '\'' :: '\'' :: '\'' :: rest =>
    if long then some (closing '\'' rest) else some ([], '\'' :: '\'' :: rest)
  | '\'' :: rest => if long then push '\'' (literalBody long rest) else some ([], rest)
  | c :: rest =>
    if isTextChar c || (long && c == '\n') then push c (literalBody long rest) else none

def dropBreak : List Char → List Char
  | '\n' :: rest => rest
  | '\r' :: '\n' :: rest => rest
  | cs => cs

/-- A text in quotes on one line. -/
def shortText? : Scan (List Char)
  | '"' :: rest => basicBody false false rest
  | '\'' :: rest => literalBody false rest
  | _ => none

/-- A text in quotes of any kind. -/
def quotedText? : Scan (List Char)
  | '"' :: '"' :: '"' :: rest => basicBody true false (dropBreak rest)
  | '\'' :: '\'' :: '\'' :: rest => literalBody true (dropBreak rest)
  | cs => shortText? cs

/-- A text without the spaces and tabs at its start. -/
def skipSpaces (cs : List Char) : List Char := cs.dropWhile fun c => c == ' ' || c == '\t'

/-- A text without the blanks, line breaks and comments at its start. -/
def skipGaps (inComment : Bool) (cs : List Char) : List Char :=
  match cs with
  | [] => []
  | '\n' :: rest => skipGaps false rest
  | '\r' :: '\n' :: rest => skipGaps false rest
  | c :: rest =>
    if inComment then if isTextChar c then skipGaps true rest else c :: rest
    else if c == ' ' || c == '\t' then skipGaps false rest
    else if c == '#' then skipGaps true rest
    else c :: rest

/-- What follows the end of a line, which may have blanks and a comment before it. -/
def afterLine? (cs : List Char) : Option (List Char) :=
  let bare := match skipSpaces cs with
    | '#' :: comment => comment.dropWhile isTextChar
    | rest => rest
  match bare with
  | [] => some []
  | '\n' :: rest => some rest
  | '\r' :: '\n' :: rest => some rest
  | _ => none

/-- A character of a key without quotes. -/
def isKeyChar (c : Char) : Bool := c.isAlphanum || c == '-' || c == '_'

/-- One part of a key. -/
def keyPart? : Scan String := fun cs =>
  match cs with
  | '"' :: _ | '\'' :: _ => (shortText? cs).map fun (key, rest) => (String.ofList key, rest)
  | _ =>
    match cs.takeWhile isKeyChar with
    | [] => none
    | key => some (String.ofList key, cs.dropWhile isKeyChar)

/-- The parts of a key with points between them, of which there are at most `fuel`. -/
def keyParts? : Nat → Scan (List String)
  | 0, _ => none
  | fuel + 1, cs =>
    match keyPart? (skipSpaces cs) with
    | none => none
    | some (part, rest) =>
      match skipSpaces rest with
      | '.' :: more => (keyParts? fuel more).map fun (parts, rest) => (part :: parts, rest)
      | rest => some ([part], rest)

def maxKeyParts : Nat := 79

/-- A key with its parts, without the blanks after it. -/
def key? : Scan (List String) := keyParts? maxKeyParts

/-- A character that cannot belong to a scalar without quotes. -/
def endsScalar (c : Char) : Bool :=
  [' ', '\t', '\n', '\r', '#', ',', ']', '\x7d', '='].contains c

/-- A scalar without quotes; a date may be followed by a blank and a time. -/
def bareScalar? : Scan Toml := fun cs =>
  let word := cs.takeWhile fun c => !endsScalar c
  let rest := cs.dropWhile fun c => !endsScalar c
  match isDate word, rest with
  | true, ' ' :: more =>
    let time := more.takeWhile fun c => !endsScalar c
    if (time.head?.map Number.isDigit).getD false then
      if isZonedTime time then some (.moment, more.drop time.length) else none
    else some (.moment, rest)
  | _, _ => (readScalar? word).map fun value => (value, rest)

/-- The items of a list after its opening bracket, of which there are fewer than `fuel`. -/
def listItems? (item : Scan Toml) : Nat → Scan (List Toml)
  | 0, _ => none
  | fuel + 1, cs =>
    match skipGaps false cs with
    | ']' :: rest => some ([], rest)
    | start =>
      match item start with
      | none => none
      | some (value, rest) =>
        match skipGaps false rest with
        | ',' :: more => (listItems? item fuel more).map fun (values, rest) => (value :: values, rest)
        | ']' :: rest => some ([value], rest)
        | _ => none

/-- One pair of a key and its value. -/
def pair? (value : Scan Toml) : Scan (List String × Toml) := fun cs =>
  match key? cs with
  | some (key, '=' :: rest) => (value (skipSpaces rest)).map fun (v, rest) => ((key, v), rest)
  | _ => none

/-- The pairs of a table in braces, from its first key on. -/
def inlinePairs? (value : Scan Toml) : Nat → Scan (List (List String × Toml))
  | 0, _ => none
  | fuel + 1, cs =>
    match pair? value cs with
    | none => none
    | some (pair, rest) =>
      match skipSpaces rest with
      | ',' :: more =>
        (inlinePairs? value fuel more).map fun (pairs, rest) => (pair :: pairs, rest)
      | '\x7d' :: rest => some ([pair], rest)
      | _ => none

/-- A table in braces, from behind the opening one. -/
def inlineTable? (value : Scan Toml) : Scan Toml := fun cs =>
  match skipSpaces cs with
  | '\x7d' :: rest => some (.table .inline [], rest)
  | start =>
    match inlinePairs? value (start.length + 1) start with
    | none => none
    | some (pairs, rest) =>
      (addPairs pairs []).map fun fields => (.table .inline fields, rest)

/-- A value in which lists and braces nest to at most a depth. -/
def value? : Nat → Scan Toml
  | depth, cs =>
    match cs with
    | '"' :: _ | '\'' :: _ => (quotedText? cs).map fun (s, rest) => (.text (String.ofList s), rest)
    | '[' :: rest =>
      match depth with
      | 0 => none
      | inner + 1 =>
        (listItems? (value? inner) (rest.length + 1) rest).map fun (items, rest) => (.list items, rest)
    | '\x7b' :: rest =>
      match depth with
      | 0 => none
      | inner + 1 => inlineTable? (value? inner) rest
    | _ => bareScalar? cs

def maxDepth : Nat := 79

/-- A header between single or doubled brackets, from behind the opening ones. -/
def header? (doubled : Bool) : Scan Line := fun cs =>
  match key? cs, doubled with
  | some (key, ']' :: ']' :: rest), true => some (.header true key, rest)
  | some (key, ']' :: rest), false => some (.header false key, rest)
  | _, _ => none

/-- A header or a pair, with the end of its line. -/
def line? : Scan Line := fun cs =>
  let scanned := match cs with
    | '[' :: '[' :: rest => header? true rest
    | '[' :: rest => header? false rest
    | _ => (pair? (value? maxDepth) cs).map fun ((key, v), rest) => (.pair key v, rest)
  match scanned with
  | some (line, rest) => (afterLine? rest).map fun after => (line, after)
  | none => none

/-- The lines of a document, of which there are fewer than `fuel`. -/
def lines? : Nat → List Char → Option (List Line)
  | 0, _ => none
  | fuel + 1, cs =>
    match skipGaps false cs with
    | [] => some []
    | start =>
      match line? start with
      | none => none
      | some (line, rest) => (lines? fuel rest).map fun lines => line :: lines

/-- Reads a document, which may begin with a byte order mark. -/
def read? (s : String) : Option Toml := do
  let cs := match s.toList with
    | '\ufeff' :: rest => rest
    | all => all
  let lines ← lines? (cs.length + 1) cs
  ofLines? lines

end DesktopShell.Toml
