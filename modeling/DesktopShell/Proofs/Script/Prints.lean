import DesktopShell.Desk
import Mathlib.Tactic.IntervalCases

/-!
# Calls and prints

Which parenthesis closes another is a matter of counting. `splitClose` finds the
first one that closes more than was opened before it (`splitClose_eq_some_iff`),
and so a call is a receiver, a method and a parenthesis with balanced tokens up to
the one that closes it (`call?_eq_some`, `exists_call?`).

A print is found wherever it begins. The scan goes on by whole statements, but no
statement other than a print covers a token at which a print begins
(`statement?_cases`), so a program prints exactly when a print begins somewhere
among its tokens (`Program.hasPrint_iff_beginsPrint`). A program that prints does nothing else.
-/
namespace DesktopShell.Script

/-- How many of some tokens open a parenthesis. -/
def opened (ts : List Token) : Nat := ts.countP fun t => t.isMark '('

/-- How many of some tokens close a parenthesis. -/
def closed (ts : List Token) : Nat := ts.countP fun t => t.isMark ')'

/-- Tokens that close a number of parentheses opened before them, and all that they open themselves,
    but nothing else. -/
structure Closes (depth : Nat) (ts : List Token) : Prop where
  all : closed ts = opened ts + depth
  front : ∀ front, front <+: ts → closed front ≤ opened front + depth

/-- Every parenthesis among the tokens has its partner among them. -/
def Balanced (ts : List Token) : Prop := Closes 0 ts

theorem opened_append (ts us : List Token) : opened (ts ++ us) = opened ts + opened us :=
  List.countP_append

theorem closed_append (ts us : List Token) : closed (ts ++ us) = closed ts + closed us :=
  List.countP_append

theorem closes_nil {depth : Nat} : Closes depth [] ↔ depth = 0 := by
  constructor
  · intro closes
    have all := closes.all
    simp only [closed, opened, List.countP_nil] at all
    omega
  · rintro rfl
    refine ⟨rfl, ?_⟩
    intro front nothing
    rw [List.prefix_nil.mp nothing]
    exact Nat.le_refl 0

/-- The first token changes how many parentheses are to be closed by the others. -/
theorem closes_cons {depth next : Nat} {t : Token} {ts : List Token}
    (step : closed [t] + next = opened [t] + depth) : Closes depth (t :: ts) ↔ Closes next ts := by
  have opens (us : List Token) : opened (t :: us) = opened [t] + opened us := opened_append [t] us
  have closing (us : List Token) : closed (t :: us) = closed [t] + closed us := closed_append [t] us
  constructor
  · intro closes
    have all := closes.all
    rw [opens, closing] at all
    refine ⟨by omega, ?_⟩
    intro front ahead
    have longer := closes.front (t :: front) (List.prefix_cons_inj t |>.mpr ahead)
    rw [opens, closing] at longer
    omega
  · intro closes
    have all := closes.all
    refine ⟨by rw [opens, closing]; omega, ?_⟩
    intro front ahead
    cases front with
    | nil => exact Nat.zero_le _
    | cons first shorter =>
      obtain ⟨rfl, behind⟩ := List.cons_prefix_cons.mp ahead
      have shorterFits := closes.front shorter behind
      rw [opens, closing]
      omega

theorem Closes.append {depth more : Nat} {ts us : List Token} (first : Closes depth ts) (second : Closes more us) :
    Closes (depth + more) (ts ++ us) := by
  have all := first.all
  have others := second.all
  refine ⟨by rw [opened_append, closed_append]; omega, ?_⟩
  intro front ahead
  rcases List.prefix_or_prefix_of_prefix ahead (List.prefix_append ts us) with short | ⟨tail, rfl⟩
  · have fits := first.front front short
    omega
  · have fits := second.front tail ((List.prefix_append_right_inj ts).mp ahead)
    rw [opened_append, closed_append]
    omega

/-- What balanced tokens end with closes at least as much as it opens. -/
theorem Balanced.opened_drop_le {ts : List Token} (balanced : Balanced ts) (n : Nat) :
    opened (ts.drop n) ≤ closed (ts.drop n) := by
  have whole := balanced.all
  have front := balanced.front (ts.take n) (List.take_prefix n ts)
  rw [← List.take_append_drop n ts, opened_append, closed_append] at whole
  omega

theorem Token.isMark_iff {t : Token} {c : Char} : t.isMark c = true ↔ t.lexeme = .mark c := by
  simp [Token.isMark]

private theorem splitClose_inside {depth : Nat} (next : Nat) {t close : Token} {ts inner rest : List Token}
    (shape : splitClose depth (t :: ts) =
      (splitClose next ts).map fun (inner, close, rest) => (t :: inner, close, rest))
    (step : closed [t] + next = opened [t] + depth) (inside : t.isMark ')' = true → depth ≠ 0)
    (ih : ∀ inner, splitClose next ts = some (inner, close, rest) ↔
      ts = inner ++ close :: rest ∧ close.isMark ')' = true ∧ Closes next inner) :
    splitClose depth (t :: ts) = some (inner, close, rest) ↔
      t :: ts = inner ++ close :: rest ∧ close.isMark ')' = true ∧ Closes depth inner := by
  rw [shape, Option.map_eq_some_iff]
  constructor
  · rintro ⟨⟨later, last, after⟩, found, same⟩
    simp only [Prod.mk.injEq] at same
    obtain ⟨rfl, rfl, rfl⟩ := same
    obtain ⟨rfl, closing, closes⟩ := (ih later).mp found
    exact ⟨rfl, closing, (closes_cons step).mpr closes⟩
  · rintro ⟨split, closing, closes⟩
    cases inner with
    | nil =>
      obtain ⟨rfl, -⟩ := List.cons.inj split
      exact absurd (closes_nil.mp closes) (inside closing)
    | cons first later =>
      obtain ⟨rfl, others⟩ := List.cons.inj split
      exact ⟨(later, close, rest), (ih later).mpr ⟨others, closing, (closes_cons step).mp closes⟩, rfl⟩

/-- The parenthesis that is found is the first one that closes more than the tokens before it open. -/
theorem splitClose_eq_some_iff {depth : Nat} {ts inner rest : List Token} {close : Token} :
    splitClose depth ts = some (inner, close, rest) ↔
      ts = inner ++ close :: rest ∧ close.isMark ')' = true ∧ Closes depth inner := by
  induction ts generalizing depth inner with
  | nil => simp [splitClose]
  | cons t ts ih =>
    by_cases closing : t.isMark ')' = true
    · have notOpening : t.isMark '(' = false := by
        rw [Token.isMark_iff] at closing
        simp [Token.isMark, closing]
      cases depth with
      | zero =>
        -- The token itself is the one that is looked for.
        constructor
        · intro found
          simp only [splitClose, closing, ↓reduceIte, Option.some.injEq, Prod.mk.injEq] at found
          obtain ⟨rfl, rfl, rfl⟩ := found
          exact ⟨rfl, closing, closes_nil.mpr rfl⟩
        · rintro ⟨split, -, closes⟩
          cases inner with
          | nil =>
            obtain ⟨rfl, rfl⟩ := List.cons.inj split
            simp [splitClose, closing]
          | cons first later =>
            obtain ⟨rfl, -⟩ := List.cons.inj split
            have past := closes.front [t] ⟨later, rfl⟩
            simp [closed, opened, closing, notOpening] at past
      | succ outer =>
        refine splitClose_inside outer (by simp [splitClose, closing]) ?_ (fun _ => by omega) fun _ => ih
        simp [closed, opened, closing, notOpening]
        omega
    · by_cases opening : t.isMark '(' = true
      · refine splitClose_inside (depth + 1) (by simp [splitClose, closing, opening]) ?_ (absurd · closing) fun _ => ih
        simp [closed, opened, closing, opening]
        omega
      · refine splitClose_inside depth (by simp [splitClose, closing, opening]) ?_ (absurd · closing) fun _ => ih
        simp [closed, opened, closing, opening]

/-- What a call begins with. -/
def callOpening (receiver method : String) : List Lexeme :=
  [.word receiver, .mark '.', .word method, .mark ':', .mark '(']

/-- Tokens begin with a call of a method of a receiver, with `inner` between the parentheses. -/
def BeginsCall (receiver method : String) (inner ts : List Token) : Prop :=
  ∃ opening close rest, ts = opening ++ inner ++ close :: rest ∧
    opening.map (·.lexeme) = callOpening receiver method ∧ Balanced inner ∧ close.lexeme = .mark ')'

theorem call?_eq_some {source : List Char} {ts : List Token} {c : Call} (found : call? source ts = some c) :
    BeginsCall c.receiver c.method c.inner ts := by
  unfold call? at found
  split at found
  · rename_i receiver _ _ _ _ method _ _ _ _ _ _ rest
    obtain ⟨⟨inner, close, after⟩, split, rfl⟩ := Option.map_eq_some_iff.mp found
    obtain ⟨rfl, closing, balanced⟩ := splitClose_eq_some_iff.mp split
    exact ⟨[_, _, _, _, _], close, after, rfl, rfl, balanced, Token.isMark_iff.mp closing⟩
  · simp at found

theorem length_of_opening {opening : List Token} {receiver method : String}
    (spelled : opening.map (·.lexeme) = callOpening receiver method) : opening.length = 5 := by
  simpa [callOpening] using congrArg List.length spelled

theorem exists_five_of_opening {opening : List Token} {receiver method : String}
    (spelled : opening.map (·.lexeme) = callOpening receiver method) : ∃ a b c d e, opening = [a, b, c, d, e] := by
  match opening, length_of_opening spelled with
  | [a, b, c, d, e], _ => exact ⟨a, b, c, d, e, rfl⟩

theorem exists_call? (source : List Char) {receiver method : String} {inner ts : List Token}
    (begins : BeginsCall receiver method inner ts) :
    ∃ c, call? source ts = some c ∧ c.receiver = receiver ∧ c.method = method ∧ c.inner = inner := by
  obtain ⟨opening, close, rest, rfl, spelled, balanced, closing⟩ := begins
  obtain ⟨a, b, c, d, e, rfl⟩ := exists_five_of_opening spelled
  have split : splitClose 0 (inner ++ close :: rest) = some (inner, close, rest) :=
    splitClose_eq_some_iff.mpr ⟨rfl, Token.isMark_iff.mpr closing, balanced⟩
  obtain ⟨_, _, _⟩ := a
  obtain ⟨_, _, _⟩ := b
  obtain ⟨_, _, _⟩ := c
  obtain ⟨_, _, _⟩ := d
  obtain ⟨_, _, _⟩ := e
  simp only [callOpening, List.map_cons, List.map_nil, List.cons.injEq, and_true] at spelled
  obtain ⟨rfl, rfl, rfl, rfl, rfl⟩ := spelled
  simp [call?, split]

theorem call?_size {source : List Char} {ts : List Token} {c : Call} (found : call? source ts = some c) :
    0 < c.size ∧ c.size ≤ ts.length := by
  obtain ⟨opening, close, rest, split, spelled, -⟩ := call?_eq_some found
  have length := congrArg List.length split
  simp only [List.length_append, List.length_cons, length_of_opening spelled] at length
  rw [Call.size]
  omega

/-- A whole call is balanced, since its last token closes what its opening opens. -/
theorem balanced_call {receiver method : String} {opening inner : List Token} {close : Token}
    (spelled : opening.map (·.lexeme) = callOpening receiver method) (balanced : Balanced inner)
    (closing : close.lexeme = .mark ')') : Balanced (opening ++ inner ++ [close]) := by
  obtain ⟨a, b, c, d, e, rfl⟩ := exists_five_of_opening spelled
  simp only [callOpening, List.map_cons, List.map_nil, List.cons.injEq, and_true] at spelled
  obtain ⟨isReceiver, isPoint, isMethod, isColon, opens⟩ := spelled
  have closes : Closes 1 [close] :=
    (closes_cons (by simp [closed, opened, Token.isMark, closing])).mpr (closes_nil.mpr rfl)
  have fromOpen : Closes 0 (e :: (inner ++ [close])) :=
    (closes_cons (by simp [closed, opened, Token.isMark, opens])).mpr (balanced.append closes)
  have plain (t : Token) (mute : t.isMark '(' = false ∧ t.isMark ')' = false) {ts : List Token}
      (later : Closes 0 ts) : Closes 0 (t :: ts) :=
    (closes_cons (by simp [closed, opened, mute])).mpr later
  exact plain a (by simp [Token.isMark, isReceiver]) <| plain b (by simp [Token.isMark, isPoint]) <|
    plain c (by simp [Token.isMark, isMethod]) <| plain d (by simp [Token.isMark, isColon]) fromOpen

theorem BeginsCall.append {receiver method : String} {inner ts : List Token} (begins : BeginsCall receiver method inner ts)
    (more : List Token) : BeginsCall receiver method inner (ts ++ more) := by
  obtain ⟨opening, close, rest, rfl, spelled, balanced, closing⟩ := begins
  exact ⟨opening, close, rest ++ more, by simp, spelled, balanced, closing⟩

/-- Where a call begins in tokens that close at least what they open and are followed by a closing
    parenthesis, it also ends in them. -/
theorem BeginsCall.within {receiver method : String} {inner ts rest : List Token} {close : Token}
    (begins : BeginsCall receiver method inner (ts ++ close :: rest)) (closing : close.lexeme = .mark ')')
    (enough : opened ts ≤ closed ts) : BeginsCall receiver method inner ts := by
  obtain ⟨opening, last, after, split, spelled, balanced, lastCloses⟩ := begins
  have whole := balanced_call spelled balanced lastCloses
  -- Tokens up to the closing parenthesis close more than they open, so no balanced tokens begin so.
  have past : ¬ ts ++ [close] <+: opening ++ inner ++ [last] := by
    intro ahead
    have fits := whole.front _ ahead
    rw [opened_append, closed_append] at fits
    simp [closed, opened, Token.isMark, closing] at fits enough
    omega
  have ours : ts ++ [close] <+: ts ++ close :: rest := ⟨rest, by simp⟩
  have theirs : opening ++ inner ++ [last] <+: ts ++ close :: rest := ⟨after, by rw [split]; simp⟩
  rcases List.prefix_or_prefix_of_prefix ours theirs with short | long
  · exact absurd short past
  · rcases List.prefix_concat_iff.mp long with same | ⟨more, inside⟩
    · exact absurd (same ▸ List.prefix_refl _) past
    · exact ⟨opening, last, more, by simp [← inside], spelled, balanced, lastCloses⟩

/-- A print begins at the first of some tokens: they begin with a call of `log` on `console`. -/
def BeginsPrint (ts : List Token) : Prop := ∃ inner, BeginsCall "console" "log" inner ts

def Statement.isPrint : Statement → Bool
  | .print _ => true
  | _ => false

theorem not_beginsPrint_nil : ¬ BeginsPrint [] := by
  rintro ⟨inner, opening, close, rest, split, -⟩
  simp at split

theorem startsPrint_iff {source : List Char} {ts : List Token} :
    startsPrint source ts = true ↔ BeginsPrint ts := by
  unfold startsPrint
  constructor
  · intro starts
    split at starts
    · rename_i c found
      have begins := call?_eq_some found
      obtain ⟨receiver, method⟩ : c.receiver = "console" ∧ c.method = "log" := by
        simpa [Call.isPrint] using starts
      exact ⟨c.inner, receiver ▸ method ▸ begins⟩
    · simp at starts
  · rintro ⟨inner, begins⟩
    obtain ⟨c, found, receiver, method, -⟩ := exists_call? source begins
    simp [found, Call.isPrint, receiver, method]

theorem hasPrint_eq_true_iff {source : List Char} {ts : List Token} :
    hasPrint source ts = true ↔ ∃ i, BeginsPrint (ts.drop i) := by
  induction ts with
  | nil => simp [hasPrint, not_beginsPrint_nil]
  | cons t ts ih =>
    rw [hasPrint, Bool.or_eq_true, startsPrint_iff, ih]
    constructor
    · rintro (here | ⟨i, later⟩)
      · exact ⟨0, here⟩
      · exact ⟨i + 1, later⟩
    · rintro ⟨i, begins⟩
      cases i with
      | zero => exact .inl begins
      | succ i => exact .inr ⟨i, begins⟩

/-- Where a print begins, so do the lexemes of its opening. -/
theorem BeginsPrint.lexemes {ts : List Token} (begins : BeginsPrint ts) :
    callOpening "console" "log" <+: ts.map (·.lexeme) := by
  obtain ⟨inner, opening, close, rest, rfl, spelled, -⟩ := begins
  exact ⟨(inner ++ close :: rest).map (·.lexeme), by simp [← spelled]⟩

/-- A call that is no print and has none between its parentheses covers no token at which a print
    begins. -/
theorem BeginsCall.covers_no_print {receiver method : String} {inner ts : List Token}
    (begins : BeginsCall receiver method inner ts) (other : ¬ BeginsPrint ts)
    (none : ∀ i, ¬ BeginsPrint (inner.drop i)) {i : Nat} (covered : i < inner.length + 6) :
    ¬ BeginsPrint (ts.drop i) := by
  obtain ⟨opening, close, rest, rfl, spelled, balanced, closing⟩ := begins
  have lexemes : (opening ++ inner ++ close :: rest).map (·.lexeme) =
      callOpening receiver method ++ (inner.map (·.lexeme) ++ .mark ')' :: rest.map (·.lexeme)) := by
    simp [spelled, closing]
  have five := length_of_opening spelled
  intro print
  have spelledPrint := print.lexemes
  rw [List.map_drop, lexemes] at spelledPrint
  by_cases early : i < 5
  · interval_cases i
    · exact other print
    all_goals simp [callOpening] at spelledPrint
  · obtain ⟨j, rfl⟩ := Nat.exists_eq_add_of_le' (Nat.le_of_not_lt early)
    have drop : (opening ++ inner ++ close :: rest).drop (j + 5) = (inner ++ close :: rest).drop j := by
      rw [List.append_assoc, show j + 5 = opening.length + j by omega, List.drop_length_add_append]
    rw [drop] at print
    by_cases inside : j < inner.length
    · rw [List.drop_append_of_le_length (by omega)] at print
      obtain ⟨within, printed⟩ := print
      exact none j ⟨within, printed.within closing (balanced.opened_drop_le j)⟩
    · have last : j = inner.length := by omega
      have atClose := print.lexemes
      simp [last, callOpening, closing] at atClose

/-- A binding covers no token at which a print begins. -/
theorem binding?_covers_no_print {ts : List Token} {found : Statement} {size : Nat}
    (binds : binding? ts = some (found, size)) :
    found.isPrint = false ∧ size = 7 ∧ ∀ i < 7, ¬ BeginsPrint (ts.drop i) := by
  unfold binding? at binds
  split at binds
  · rename_i keyword _ _ name _ _ _ _ _ _ _ _ window _ _ _ _ _ rest
    split at binds
    · rename_i k known
      split at binds
      · simp at binds
      · simp only [Option.some.injEq, Prod.mk.injEq] at binds
        obtain ⟨rfl, rfl⟩ := binds
        refine ⟨rfl, rfl, ?_⟩
        intro i covered print
        have lexemes := print.lexemes
        -- Only the keyword and the name are words that could be the receiver; the keyword is another
        -- word, and no point follows the name.
        have other : keyword ≠ "console" := by
          rintro rfl
          simp [Keyword.ofName?] at known
        interval_cases i
        · simp [callOpening, other.symm] at lexemes
        all_goals simp [callOpening] at lexemes
    · simp at binds
  · simp at binds

theorem print?_eq_some {source : List Char} {ts : List Token} {found : Statement} {size : Nat}
    (prints : print? source ts = some (found, size)) : found.isPrint = true ∧ BeginsPrint ts := by
  unfold print? at prints
  split at prints
  · rename_i c called
    split at prints
    · rename_i printing
      simp only [Option.some.injEq, Prod.mk.injEq] at prints
      have starts : startsPrint source ts = true := by simp [startsPrint, called, printing]
      exact ⟨prints.1 ▸ rfl, startsPrint_iff.mp starts⟩
    · simp at prints
  · simp at prints

theorem print?_eq_none {source : List Char} {ts : List Token} (none : print? source ts = none) :
    ¬ BeginsPrint ts := by
  intro begins
  have starts : startsPrint source ts = true := startsPrint_iff.mpr begins
  unfold print? at none
  unfold startsPrint at starts
  split at none <;> simp_all

/-- A call covers no token at which a print begins, unless it is a print itself. -/
theorem callStatement?_covers_no_print {source : List Char} {ts : List Token} {found : Statement} {size : Nat}
    (calls : callStatement? source ts = some (found, size)) (other : ¬ BeginsPrint ts) :
    found.isPrint = false ∧ 0 < size ∧ ∀ i < size, ¬ BeginsPrint (ts.drop i) := by
  unfold callStatement? at calls
  split at calls
  · rename_i c called
    split at calls
    · simp at calls
    · rename_i noPrint
      simp only [Option.some.injEq, Prod.mk.injEq] at calls
      obtain ⟨rfl, rfl⟩ := calls
      have none : ∀ i, ¬ BeginsPrint (c.inner.drop i) := by
        intro i print
        exact noPrint (hasPrint_eq_true_iff.mpr ⟨i, print⟩)
      refine ⟨rfl, by simp [Call.size], ?_⟩
      intro i covered
      exact (call?_eq_some called).covers_no_print other none covered
  · simp at calls

/-- A statement is a print, and then a print begins at its first token, or else it covers no token at
    which a print begins. -/
theorem statement?_cases {source : List Char} {ts : List Token} {found : Statement} {size : Nat}
    (read : statement? source ts = some (found, size)) :
    found.isPrint = true ∧ BeginsPrint ts ∨
      found.isPrint = false ∧ 0 < size ∧ ∀ i < size, ¬ BeginsPrint (ts.drop i) := by
  rcases Option.or_eq_some_iff.mp read with prints | ⟨noPrint, read⟩
  · exact .inl (print?_eq_some prints)
  · rcases Option.or_eq_some_iff.mp read with binds | ⟨-, calls⟩
    · obtain ⟨plain, rfl, covers⟩ := binding?_covers_no_print binds
      exact .inr ⟨plain, by omega, covers⟩
    · exact .inr (callStatement?_covers_no_print calls (print?_eq_none noPrint))

/-- The statements of tokens include a print exactly when a print begins somewhere among them. -/
theorem any_isPrint_statements {source : List Char} {ts : List Token} :
    (statements source ts).any Statement.isPrint = true ↔ ∃ i, BeginsPrint (ts.drop i) := by
  induction ts using statements.induct source with
  | case1 => simp [statements, not_beginsPrint_nil]
  | case2 t ts found size read ih =>
    rw [statements, read]
    simp only [List.any_cons, Bool.or_eq_true, ih]
    rcases statement?_cases read with ⟨prints, begins⟩ | ⟨plain, positive, covers⟩
    · exact ⟨fun _ => ⟨0, begins⟩, fun _ => .inl prints⟩
    · -- The scan goes on after the statement, where everything is that the statement does not cover.
      have after (j : Nat) : (ts.drop (size - 1)).drop j = (t :: ts).drop (size + j) := by
        obtain ⟨n, rfl⟩ : ∃ n, size = n + 1 := ⟨size - 1, by omega⟩
        simp [Nat.add_right_comm n 1 j]
      constructor
      · rintro (prints | ⟨j, begins⟩)
        · simp [plain] at prints
        · exact ⟨size + j, after j ▸ begins⟩
      · rintro ⟨i, begins⟩
        have beyond : size ≤ i := Nat.le_of_not_lt fun covered => covers i covered begins
        refine .inr ⟨i - size, ?_⟩
        rw [after, Nat.add_sub_cancel' beyond]
        exact begins
  | case3 t ts none ih =>
    rw [statements, none]
    simp only [ih]
    constructor
    · rintro ⟨i, begins⟩
      exact ⟨i + 1, begins⟩
    · rintro ⟨i, begins⟩
      cases i with
      | zero => exact absurd begins (print?_eq_none (Option.or_eq_none_iff.mp none).1)
      | succ i => exact ⟨i, begins⟩

theorem Program.hasPrint_eq_any (p : Program) : p.hasPrint = p.statements.any Statement.isPrint := by
  apply Bool.eq_iff_iff.mpr
  simp only [hasPrint, prints, Bool.not_eq_true', List.isEmpty_eq_false_iff_exists_mem, List.mem_filterMap,
    List.any_eq_true]
  constructor
  · rintro ⟨e, statement, member, prints⟩
    cases statement with
    | print expr => exact ⟨_, member, rfl⟩
    | _ => simp at prints
  · rintro ⟨statement, member, prints⟩
    cases statement with
    | print expr => exact ⟨expr, _, member, rfl⟩
    | _ => simp [Statement.isPrint] at prints

/-- A source prints exactly when somewhere among its tokens a print begins, of which no other
    statement that could be read anywhere covers the first token. On a desk, a source that prints
    shows what it prints and does nothing else, also when it is a line of a terminal. -/
theorem Program.hasPrint_iff_beginsPrint (source : String) :
    ((Program.ofSource source).hasPrint = true ↔ ∃ i, BeginsPrint ((tokens source.toList).drop i)) ∧
      (∀ i found size, statement? source.toList ((tokens source.toList).drop i) = some (found, size) →
        found.isPrint = false → ∀ j, i ≤ j → j < i + size → ¬ BeginsPrint ((tokens source.toList).drop j)) ∧
      ((Program.ofSource source).hasPrint = true → ∀ (desk : Desk) (now : UInt64),
        let shown := Text.trim (Text.unlines ((Program.ofSource source).prints.map Expr.render))
        Script.evaluate (Desk.host now) desk source = (desk, shown) ∧
          ∀ line, Shell.Command.ofLine line = .script source → desk.evaluate now line = (desk, .ok shown)) := by
  refine ⟨?_, ?_, ?_⟩
  · rw [hasPrint_eq_any]
    exact any_isPrint_statements
  · intro i found size read plain j notBefore covered
    rcases statement?_cases read with ⟨prints, -⟩ | ⟨-, -, covers⟩
    · simp [plain] at prints
    · have within := covers (j - i) (by omega)
      rwa [List.drop_drop, Nat.add_sub_cancel' notBefore] at within
  · intro prints desk now shown
    have evaluated : Script.evaluate (Desk.host now) desk source = (desk, shown) := by
      rw [Script.evaluate, run, if_pos prints]
      rfl
    refine ⟨evaluated, ?_⟩
    intro line command
    simp only [Desk.evaluate, command, evaluated]

/-- A print between the parentheses of a call keeps the line from moving and closing its window. -/
theorem Program.hasPrint_iff_beginsPrint_nested :
    let source := "local a = window('win-1') a.move:((0), console.log:(f(x)), 2) a.close:()"
    let desk := (Desk.start Config.standard (.empty 0)).act 1 (.openApp "terminal" none)
    (Program.ofSource source).hasPrint = true ∧
      Script.evaluate (Desk.host 2) desk source = (desk, "f(x)") := by
  intro source desk
  have prints : (Program.ofSource source).hasPrint = true := by decide +kernel
  have shown : Text.trim (Text.unlines ((Program.ofSource source).prints.map Expr.render)) = "f(x)" := by
    decide +kernel
  have evaluated := ((hasPrint_iff_beginsPrint source).2.2 prints desk 2).1
  rw [shown] at evaluated
  exact ⟨prints, evaluated⟩

end DesktopShell.Script
