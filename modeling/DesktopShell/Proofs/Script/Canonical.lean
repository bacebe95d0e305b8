import DesktopShell.Proofs.Script.Prints
import DesktopShell.Proofs.Script.Tokens

/-!
# Canonical sources

Every statement with proper names, identifiers and arguments has one spelling that reads
back as that statement, wherever it stands: what follows it is read from where it ends
(`ReadsAs`). So a source that spells statements one after another, with blanks between
them, is the program of these statements (`Program.ofSource_spelled`).
-/
namespace DesktopShell.Script

/-- A call as it is written, with a text between its parentheses. -/
def spelledCall (receiver method inner : String) : String := receiver ++ "." ++ method ++ ":(" ++ inner ++ ")"

def Expr.spelled : Expr → String
  | .text value => "\"" ++ value ++ "\""
  | .number x => Number.text x
  | .verbatim value => value

def Statement.spelled : Statement → String
  | .print e => spelledCall "console" "log" e.spelled
  | .bind keyword name window => keyword.name ++ " " ++ name ++ " = window(\"" ++ window ++ "\")"
  | .call receiver method args => spelledCall receiver method (", ".intercalate args)

/-- Statements as they are written, each with what stands between it and the next one. -/
def spelled (parts : List (Statement × String)) : String :=
  String.join (parts.map fun part => part.1.spelled ++ part.2)

/-- A character that is neither a quote nor a parenthesis. -/
def isPlain (c : Char) : Bool := c != '(' && c != ')' && c != '"' && c != '\''

theorem isPlain_iff {c : Char} : isPlain c = true ↔ c ≠ '(' ∧ c ≠ ')' ∧ c ≠ '"' ∧ c ≠ '\'' := by
  simp [isPlain, and_assoc]

/-- A text that is not blank at its ends and has neither quotes nor parentheses in it. -/
structure IsBare (s : String) : Prop where
  nonempty : s ≠ ""
  trimmed : Text.trim s = s
  plain : s.toList.all isPlain = true

/-- An expression with a spelling of its own: a text without the quotes that stand around it, or a bare text that
    does not read as a number. -/
def Expr.Canonical : Expr → Prop
  | .text value => '"' ∉ value.toList
  | .number _ => False
  | .verbatim value => IsBare value ∧ Number.ofText? value = none

/-- A statement with a spelling of its own. A call of `log` on `console` has none, as it would be read as a print. -/
def Statement.Canonical : Statement → Prop
  | .print e => e.Canonical
  | .bind _ name window => IsName name ∧ window ≠ "" ∧ '"' ∉ window.toList
  | .call receiver method args => IsName receiver ∧ IsName method ∧ ¬ (receiver = "console" ∧ method = "log") ∧
      ∀ arg ∈ args, IsBare arg ∧ ',' ∉ arg.toList

/-- None of some tokens is a parenthesis. -/
def Flat (ts : List Token) : Prop := ∀ t ∈ ts, t.isMark '(' = false ∧ t.isMark ')' = false

/-- A text that is read in front of a closing parenthesis as tokens of its own, none of which is a parenthesis. -/
def Enclosed (text : List Char) : Prop :=
  ∀ offset rest, ∃ ts, Flat ts ∧
    tokensFrom offset (text ++ ')' :: rest) = ts ++ tokensFrom (offset + byteLength text) (')' :: rest)

theorem enclosed_of_plain {text : List Char} (plain : ∀ c ∈ text, isPlain c = true) : Enclosed text := by
  have other (c : Char) (member : c ∈ text) := isPlain_iff.mp (plain c member)
  intro offset rest
  refine ⟨tokensFrom offset text, ?_, tokensFrom_append_close (fun c member => (other c member).2.2) offset rest⟩
  intro t member
  constructor <;> rw [← Bool.not_eq_true, Token.isMark_iff] <;> intro mark
  · exact (other _ (mem_of_mark offset member mark)).1 rfl
  · exact (other _ (mem_of_mark offset member mark)).2.1 rfl

theorem enclosed_quoted {value : List Char} (unquoted : '"' ∉ value) : Enclosed ('"' :: (value ++ ['"'])) := by
  intro offset rest
  refine ⟨[⟨.quoted (String.ofList value) '"', offset, offset + byteLength ('"' :: (value ++ ['"']))⟩], ?_, ?_⟩
  · simp [Flat, Token.isMark]
  · simpa using tokensFrom_quoted rfl unquoted offset (')' :: rest)

theorem Flat.balanced {ts : List Token} (flat : Flat ts) : Balanced ts := by
  have none {front : List Token} (within : front <+: ts) : opened front = 0 ∧ closed front = 0 := by
    constructor <;> refine List.countP_eq_zero.mpr fun t member => ?_
    · simp [flat t (within.subset member)]
    · simp [flat t (within.subset member)]
  refine ⟨by simp [none (List.prefix_refl ts)], ?_⟩
  intro front within
  simp [none within]

theorem Flat.splitClose_eq {ts : List Token} (flat : Flat ts) {close : Token} (closing : close.lexeme = .mark ')')
    (rest : List Token) : splitClose 0 (ts ++ close :: rest) = some (ts, close, rest) :=
  splitClose_eq_some_iff.mpr ⟨rfl, Token.isMark_iff.mpr closing, flat.balanced⟩

theorem Flat.hasPrint_eq (source : List Char) {ts : List Token} (flat : Flat ts) : hasPrint source ts = false := by
  rw [← Bool.not_eq_true, hasPrint_eq_true_iff]
  rintro ⟨i, print⟩
  have opens : Lexeme.mark '(' ∈ (ts.drop i).map (·.lexeme) := print.lexemes.subset (by simp [callOpening])
  obtain ⟨t, member, mark⟩ := List.mem_map.mp opens
  have other := (flat t (List.mem_of_mem_drop member)).1
  rw [Token.isMark_iff.mpr mark] at other
  cases other

theorem isName_console : IsName "console" := ⟨'c', ['o', 'n', 's', 'o', 'l', 'e'], rfl, rfl, rfl⟩

theorem isName_log : IsName "log" := ⟨'l', ['o', 'g'], rfl, rfl, rfl⟩

/-- A written call is read as that call, with what was put between its parentheses, and what follows it is read from
    its end. -/
theorem call?_spelled {receiver method inner : String} (isReceiver : IsName receiver) (isMethod : IsName method)
    (enclosed : Enclosed inner.toList) (before rest : List Char) :
    let written := (spelledCall receiver method inner).toList
    let ts := tokensFrom (byteLength before) (written ++ rest)
    ∃ within, Flat within ∧ call? (before ++ written ++ rest) ts = some ⟨receiver, method, within, inner.toList⟩ ∧
      ts.drop (within.length + 6) = tokensFrom (byteLength before + byteLength written) rest := by
  intro written ts
  let opening := receiver.toList ++ '.' :: (method.toList ++ [':', '('])
  let start := byteLength before + byteLength receiver.toList + '.'.utf8Size + byteLength method.toList +
    ':'.utf8Size + '('.utf8Size
  have shape : written = opening ++ inner.toList ++ [')'] := by
    simp [written, opening, spelledCall]
  have begins : start = byteLength (before ++ opening) := by
    simp only [start, opening, byteLength_append, byteLength]
    omega
  have ends : start + byteLength inner.toList + ')'.utf8Size = byteLength before + byteLength written := by
    simp only [begins, shape, byteLength_append, byteLength]
    omega
  obtain ⟨within, flat, read⟩ := enclosed start rest
  have whole : written ++ rest =
      receiver.toList ++ '.' :: (method.toList ++ ':' :: '(' :: (inner.toList ++ ')' :: rest)) := by
    simp [shape, opening]
  have tokens : ts = tokensFrom (byteLength before) (written ++ rest) := rfl
  rw [whole, tokensFrom_name isReceiver (by simp; decide), tokensFrom_mark (by decide),
    tokensFrom_name isMethod (by simp; decide), tokensFrom_mark (by decide), tokensFrom_mark (by decide), read,
    tokensFrom_mark (by decide), ends] at tokens
  have text : slice (before ++ written ++ rest) start (start + byteLength inner.toList) = inner.toList := by
    have place := slice_append (before ++ opening) inner.toList (')' :: rest)
    rw [← begins] at place
    simpa [shape] using place
  refine ⟨within, flat, ?_, ?_⟩
  · rw [tokens]
    simp only [call?]
    rw [flat.splitClose_eq rfl, Option.map_some]
    exact congrArg (fun between => some (Call.mk receiver method within between)) text
  · rw [tokens]
    simp

theorem IsBare.unpadded {s : String} (bare : IsBare s) : Text.Unpadded s.toList :=
  Text.trim_eq_self_iff.mp bare.trimmed

theorem IsBare.unquote?_eq_none {s : String} (bare : IsBare s) :
    unquote? '"' s.toList = none ∧ unquote? '\'' s.toList = none := by
  have plain := List.all_eq_true.mp bare.plain
  cases chars : s.toList with
  | nil => exact ⟨rfl, rfl⟩
  | cons c cs =>
    rw [chars] at plain
    have first := isPlain_iff.mp (plain c (by simp))
    simp [unquote?, first]

/-- A canonical expression is read back from its spelling. -/
theorem Expr.ofChars_spelled {e : Expr} (canonical : e.Canonical) : Expr.ofChars e.spelled.toList = e := by
  cases e with
  | text value =>
    have unpadded : Text.Unpadded ('"' :: (value.toList ++ ['"'])) := by
      have solid : Text.isBlank '"' = false := by decide
      refine ⟨by simp [solid], ?_⟩
      rw [← List.cons_append, List.getLast?_concat]
      simp [solid]
    have inside : unquote? '"' ('"' :: (value.toList ++ ['"'])) = some value.toList := by simp [unquote?]
    have chars : (Expr.text value).spelled.toList = '"' :: (value.toList ++ ['"']) := by simp [Expr.spelled]
    simp [Expr.ofChars, chars, unpadded.trimmed_eq, inside]
  | number x => exact canonical.elim
  | verbatim value =>
    obtain ⟨bare, word⟩ := canonical
    obtain ⟨double, single⟩ := bare.unquote?_eq_none
    have number : Number.ofChars? value.toList = none := word
    simp [Expr.ofChars, Expr.spelled, bare.unpadded.trimmed_eq, double, single, number]

/-- Written arguments have only the characters of the arguments and those between them. -/
theorem mem_of_mem_intercalate {args : List String} {c : Char} (member : c ∈ (", ".intercalate args).toList) :
    c = ',' ∨ c = ' ' ∨ ∃ arg ∈ args, c ∈ arg.toList := by
  induction args with
  | nil => simp at member
  | cons first others ih =>
    cases others with
    | nil => exact .inr (.inr ⟨first, by simp, by simpa using member⟩)
    | cons second others =>
      rw [String.intercalate_cons_cons, String.toList_append, String.toList_append, List.mem_append,
        List.mem_append] at member
      rcases member with (own | between) | later
      · exact .inr (.inr ⟨first, by simp, own⟩)
      · simp at between
        rcases between with rfl | rfl <;> simp
      · rcases ih later with comma | space | ⟨arg, listed, inside⟩
        · exact .inl comma
        · exact .inr (.inl space)
        · exact .inr (.inr ⟨arg, by simp [listed], inside⟩)

/-- The parts of written arguments are the arguments, each but the first with a blank before it. -/
theorem parts_intercalate {first : String} {others : List String}
    (whole : ∀ arg ∈ first :: others, ',' ∉ arg.toList) :
    Text.parts (fun c => c == ',') (", ".intercalate (first :: others)).toList =
      first.toList :: others.map fun arg => ' ' :: arg.toList := by
  have inside {arg : String} (free : ',' ∉ arg.toList) : ∀ c ∈ arg.toList, (c == ',') = false := by
    intro c member
    rw [beq_eq_false_iff_ne]
    rintro rfl
    exact free member
  induction others generalizing first with
  | nil =>
    have parted : Text.parts (fun c => c == ',') [] = [[]] := rfl
    simpa using Text.parts_append (inside (whole first (by simp))) parted
  | cons second others ih =>
    have later := @ih second fun arg member => whole arg (List.mem_cons_of_mem first member)
    have blank : ∀ c ∈ [' '], (c == ',') = false := by simp
    have chars : (", ".intercalate (first :: second :: others)).toList =
        first.toList ++ ',' :: ([' '] ++ (", ".intercalate (second :: others)).toList) := by
      simp
    rw [chars, Text.parts_append (inside (whole first (by simp))) (Text.parts_cons_of_separates rfl _),
      Text.parts_append blank later]
    simp

theorem arguments_intercalate {args : List String} (canonical : ∀ arg ∈ args, IsBare arg ∧ ',' ∉ arg.toList) :
    arguments (", ".intercalate args).toList = args := by
  have trims : ∀ arg ∈ args,
      Text.trimmed arg.toList = arg.toList ∧ Text.trimmed (' ' :: arg.toList) = arg.toList := by
    intro arg member
    have unpadded := (canonical arg member).1.unpadded.trimmed_eq
    exact ⟨unpadded, (Text.trimmed_cons (by decide) arg.toList).trans unpadded⟩
  have full : ∀ arg ∈ args, ((fun text : List Char => !text.isEmpty) ∘ String.toList) arg = true := by
    intro arg member
    simpa using (canonical arg member).1.nonempty
  cases args with
  | nil => decide
  | cons first others =>
    rw [arguments, parts_intercalate fun arg member => (canonical arg member).2]
    have trimmed : (first.toList :: others.map fun arg => ' ' :: arg.toList).map Text.trimmed =
        (first :: others).map String.toList := by
      rw [List.map_cons, (trims first (by simp)).1, List.map_cons, List.map_map]
      congr 1
      exact List.map_congr_left fun arg member => (trims arg (by simp [member])).2
    rw [trimmed, List.filter_map, List.filter_eq_self.mpr full, List.map_map]
    simp

/-- A text that is read as one statement wherever it stands, and after which the reading goes on at its end. -/
def ReadsAs (written : List Char) (found : Statement) : Prop :=
  ∀ before rest, ∃ size,
    let ts := tokensFrom (byteLength before) (written ++ rest)
    statement? (before ++ written ++ rest) ts = some (found, size) ∧ 0 < size ∧
      ts.drop size = tokensFrom (byteLength before + byteLength written) rest

theorem readsAs_print {e : Expr} (canonical : e.Canonical) :
    ReadsAs (Statement.print e).spelled.toList (.print e) := by
  have enclosed : Enclosed e.spelled.toList := by
    cases e with
    | text value => simpa [Expr.spelled] using enclosed_quoted canonical
    | number x => exact canonical.elim
    | verbatim value => exact enclosed_of_plain (List.all_eq_true.mp canonical.1.plain)
  intro before rest
  obtain ⟨within, -, called, dropped⟩ := call?_spelled isName_console isName_log enclosed before rest
  refine ⟨within.length + 6, ?_, by omega, dropped⟩
  simp only [statement?, print?, Statement.spelled, called, Call.isPrint, Call.size, Expr.ofChars_spelled canonical]
  rfl

theorem binding?_of_call? {source : List Char} {ts : List Token} {c : Call} (called : call? source ts = some c) :
    binding? ts = none := by
  unfold binding?
  split
  · simp [call?] at called
  · rfl

theorem readsAs_call {receiver method : String} {args : List String}
    (canonical : (Statement.call receiver method args).Canonical) :
    ReadsAs (Statement.call receiver method args).spelled.toList (.call receiver method args) := by
  obtain ⟨isReceiver, isMethod, noPrint, bare⟩ := canonical
  have enclosed : Enclosed (", ".intercalate args).toList := by
    apply enclosed_of_plain
    intro c member
    rcases mem_of_mem_intercalate member with rfl | rfl | ⟨arg, listed, inside⟩
    · decide
    · decide
    · exact List.all_eq_true.mp (bare arg listed).1.plain c inside
  intro before rest
  obtain ⟨within, flat, called, dropped⟩ := call?_spelled isReceiver isMethod enclosed before rest
  have other : (decide (receiver = "console") && decide (method = "log")) = false := by simpa using noPrint
  refine ⟨within.length + 6, ?_, by omega, dropped⟩
  simp only [statement?, print?, binding?_of_call? called, callStatement?, Statement.spelled, called, Call.isPrint,
    Call.size, other, flat.hasPrint_eq, arguments_intercalate bare]
  rfl

theorem readsAs_bind {keyword : Keyword} {name window : String}
    (canonical : (Statement.bind keyword name window).Canonical) :
    ReadsAs (Statement.bind keyword name window).spelled.toList (.bind keyword name window) := by
  obtain ⟨isName, nonempty, unquoted⟩ := canonical
  have isKeyword : IsName keyword.name := by
    cases keyword <;> exact ⟨_, _, rfl, rfl, rfl⟩
  have isWindow : IsName "window" := ⟨_, _, rfl, rfl, rfl⟩
  have known : Keyword.ofName? keyword.name = some keyword := by cases keyword <;> decide
  intro before rest
  have chars : (Statement.bind keyword name window).spelled.toList = keyword.name.toList ++ ' ' :: (name.toList ++
      ' ' :: '=' :: ' ' :: ("window".toList ++ '(' :: '"' :: (window.toList ++ ['"', ')']))) := by
    simp [Statement.spelled]
  have whole : (Statement.bind keyword name window).spelled.toList ++ rest = keyword.name.toList ++ ' ' ::
      (name.toList ++ ' ' :: '=' :: ' ' ::
        ("window".toList ++ '(' :: '"' :: (window.toList ++ '"' :: ')' :: rest))) := by
    simp [chars]
  have tokens := congrArg (tokensFrom (byteLength before)) whole
  rw [tokensFrom_name isKeyword (by simp; decide), tokensFrom_blank (by decide),
    tokensFrom_name isName (by simp; decide), tokensFrom_blank (by decide), tokensFrom_mark (by decide),
    tokensFrom_blank (by decide), tokensFrom_name isWindow (by simp; decide), tokensFrom_mark (by decide),
    tokensFrom_quoted rfl unquoted, tokensFrom_mark (by decide)] at tokens
  refine ⟨7, ?_, by omega, ?_⟩
  · rw [tokens]
    simp only [statement?, print?, call?, binding?, known, String.ofList_toList, if_neg nonempty]
    rfl
  · rw [tokens]
    simp only [List.drop_succ_cons, List.drop_zero]
    congr 1
    simp only [chars, byteLength_append, byteLength]
    omega

/-- What a spelled statement adds to the statements of a source. -/
theorem ReadsAs.statements_append {written : List Char} {found : Statement} (reads : ReadsAs written found)
    (before rest : List Char) :
    statements (before ++ written ++ rest) (tokensFrom (byteLength before) (written ++ rest)) =
      found :: statements (before ++ written ++ rest) (tokensFrom (byteLength before + byteLength written) rest) := by
  obtain ⟨size, read, positive, dropped⟩ := reads before rest
  obtain ⟨n, rfl⟩ : ∃ n, size = n + 1 := ⟨size - 1, by omega⟩
  -- Statements go by the list of tokens, which is not empty where a statement is read.
  generalize tokensFrom (byteLength before) (written ++ rest) = ts at read dropped ⊢
  cases ts with
  | nil => simp [statement?, print?, call?, binding?, callStatement?] at read
  | cons t ts =>
    rw [statements, read, ← dropped]
    rfl

theorem Statement.readsAs {found : Statement} (canonical : found.Canonical) : ReadsAs found.spelled.toList found := by
  cases found with
  | print e => exact readsAs_print canonical
  | bind keyword name window => exact readsAs_bind canonical
  | call receiver method args => exact readsAs_call canonical

theorem statements_spelled {parts : List (Statement × String)} (canonical : ∀ part ∈ parts, part.1.Canonical)
    (blank : ∀ part ∈ parts, part.2.toList.all Text.isBlank = true) (before : List Char) :
    statements (before ++ (spelled parts).toList) (tokensFrom (byteLength before) (spelled parts).toList) =
      parts.map (·.1) := by
  induction parts generalizing before with
  | nil => simp [spelled, tokensFrom, statements]
  | cons part parts ih =>
    -- The source stays whole, as the texts of calls are slices of it; the part that was read grows.
    obtain ⟨found, gap⟩ := part
    have chars : (spelled ((found, gap) :: parts)).toList =
        found.spelled.toList ++ (gap.toList ++ (spelled parts).toList) := by
      simp [spelled, String.join_cons]
    have step := (Statement.readsAs (canonical (found, gap) (by simp))).statements_append before
      (gap.toList ++ (spelled parts).toList)
    have later := ih (fun part member => canonical part (by simp [member]))
      (fun part member => blank part (by simp [member])) (before ++ found.spelled.toList ++ gap.toList)
    have blanks := List.all_eq_true.mp (blank (found, gap) (by simp))
    rw [chars, ← List.append_assoc, step, tokensFrom_blanks blanks, List.map_cons, ← later]
    simp only [byteLength_append, List.append_assoc, Nat.add_assoc]

/-- A source that spells canonical statements one after another, each with blanks or nothing after it, is the program
    of these statements. -/
theorem Program.ofSource_spelled {parts : List (Statement × String)} (canonical : ∀ part ∈ parts, part.1.Canonical)
    (blank : ∀ part ∈ parts, part.2.toList.all Text.isBlank = true) :
    Program.ofSource (Script.spelled parts) = ⟨parts.map (·.1)⟩ := by
  have all := statements_spelled canonical blank []
  rw [Program.ofSource, tokens]
  exact congrArg Program.mk all

/-- Names that are keywords, texts that look like other statements, and blanks between some of the statements. -/
theorem Program.ofSource_spelled_keywords :
    let parts : List (Statement × String) := [(.bind .varWord "local" "a', console.log:(1)", "\n "),
      (.call "local" "log" ["1 2", "window"], ""), (.call "console" "var" [], " "),
      (.print (.text "f(x), 'y'"), "\n"), (.print (.verbatim "a, b.c:"), "")]
    let source := "var local = window(\"a', console.log:(1)\")\n local.log:(1 2, window)console.var:() " ++
      "console.log:(\"f(x), 'y'\")\nconsole.log:(a, b.c:)"
    Script.spelled parts = source ∧ Program.ofSource source = ⟨parts.map (·.1)⟩ := by
  intro parts source
  have spells : Script.spelled parts = source := by decide
  refine ⟨spells, ?_⟩
  rw [← spells]
  apply Program.ofSource_spelled
  · have isLocal : IsName "local" := ⟨_, _, rfl, rfl, rfl⟩
    have isVar : IsName "var" := ⟨_, _, rfl, rfl, rfl⟩
    have spaced : IsBare "1 2" := ⟨by decide, by decide, by decide⟩
    have word : IsBare "window" := ⟨by decide, by decide, by decide⟩
    have commas : IsBare "a, b.c:" := ⟨by decide, by decide, by decide⟩
    have noNumber : Number.ofText? "a, b.c:" = none := by decide +kernel
    simp [parts, Statement.Canonical, Expr.Canonical, isLocal, isVar, isName_console, isName_log, spaced, word,
      commas, noNumber]
  · decide

end DesktopShell.Script
