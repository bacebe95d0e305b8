import DesktopShell.Proofs.Script.Prints
import DesktopShell.Proofs.Script.Tokens
import DesktopShell.Script.Guarded

/-!
# A scan by positions succeeds

On the tokens of a source every guarded step is taken where it makes sense, since the
tokens tile the source (`Tiles`) and a parenthesis is looked for only behind the opening of
a call. What is read at a position is what is read from the tokens that begin there
(`statement_eq`), and so a scan finds the statements of the program, each behind the one
before (`scan_tokens`).
-/
namespace DesktopShell.Script

theorem isBoundary_iff {text : List Char} {n : Nat} : isBoundary text n = true ↔ IsBoundary text n := by
  induction text generalizing n with
  | nil =>
    cases n with
    | zero => simpa [isBoundary] using ⟨[], [], rfl, rfl⟩
    | succ n =>
      simp only [isBoundary, Bool.false_eq_true, false_iff]
      rintro ⟨before, after, split, length⟩
      rw [(List.append_eq_nil_iff.mp split.symm).1] at length
      cases length
  | cons c cs ih =>
    cases n with
    | zero => simpa [isBoundary] using ⟨[], c :: cs, rfl, rfl⟩
    | succ n =>
      rw [isBoundary, Bool.and_eq_true, decide_eq_true_eq, ih]
      constructor
      · rintro ⟨fits, before, after, split, length⟩
        refine ⟨c :: before, after, by simp [split], ?_⟩
        rw [byteLength]
        omega
      · rintro ⟨before, after, split, length⟩
        cases before with
        | nil => cases length
        | cons d before =>
          obtain ⟨rfl, others⟩ := List.cons.inj split
          rw [byteLength] at length
          exact ⟨by omega, before, after, others, by omega⟩

theorem cut_eq_ok {text : List Char} {start stop : Nat} (forward : start ≤ stop) (starts : IsBoundary text start)
    (stops : IsBoundary text stop) : cut text start stop = .ok (slice text start stop) := by
  rw [cut, if_pos ⟨forward, isBoundary_iff.mpr starts, isBoundary_iff.mpr stops⟩]

/-- A character that is cut in two is a fault. -/
example : cut "é".toList 0 1 = .error .cut := by decide

namespace Guarded

/-- Between quotes of one byte there is always a text. -/
theorem unquote_eq (quote : Char) (size : quote.utf8Size = 1) (text : List Char) :
    unquote quote text = .ok (unquote? quote text) := by
  have single : byteLength [quote] = 1 := by simp [byteLength, size]
  unfold unquote
  split
  · rename_i ends
    obtain ⟨long, first, last⟩ := ends
    obtain ⟨rest, rfl⟩ := List.head?_eq_some_iff.mp first
    have more : rest ≠ [] := by
      rintro rfl
      omega
    rw [List.getLast?_cons_of_ne_nil more] at last
    obtain ⟨value, rfl⟩ := List.getLast?_eq_some_iff.mp last
    have before : byteLength (quote :: (value ++ [quote])) - 1 = byteLength [quote] + byteLength value := by
      rw [← List.cons_append, byteLength_append, byteLength, single, size]
      omega
    have inside := slice_append [quote] value [quote]
    have stops : IsBoundary (quote :: (value ++ [quote])) (byteLength [quote] + byteLength value) :=
      ⟨[quote] ++ value, [quote], by simp, (byteLength_append _ _).symm⟩
    have starts : IsBoundary (quote :: (value ++ [quote])) 1 := ⟨[quote], value ++ [quote], rfl, single.symm⟩
    rw [single] at inside stops
    rw [before, single, cut_eq_ok (Nat.le_add_right _ _) starts stops, unquote?_eq_some_iff.mpr rfl]
    exact congrArg (fun inside => Except.ok (some inside)) inside
  · rename_i other
    cases found : unquote? quote text with
    | none => rfl
    | some value =>
      refine absurd ?_ other
      rw [unquote?_eq_some_iff.mp found, ← List.cons_append, byteLength_append, byteLength, single, size]
      exact ⟨by omega, rfl, List.getLast?_concat⟩

theorem expr_eq (raw : List Char) : expr raw = .ok (Expr.ofChars raw) := by
  have double := unquote_eq '"' rfl (Text.trimmed raw)
  have single := unquote_eq '\'' rfl (Text.trimmed raw)
  simp only [expr, double, single, Expr.ofChars]
  cases unquote? '"' (Text.trimmed raw) with
  | some value => rfl
  | none =>
    cases unquote? '\'' (Text.trimmed raw) with
    | some value => rfl
    | none => cases Number.ofChars? (Text.trimmed raw) <;> rfl

theorem drop_of_getElem? {ts : List Token} {i : Nat} {t : Token} (listed : ts[i]? = some t) :
    ts.drop i = t :: ts.drop (i + 1) := by
  obtain ⟨inside, rfl⟩ := List.getElem?_eq_some_iff.mp listed
  exact List.drop_eq_getElem_cons inside

theorem wordAt?_eq_some {ts : List Token} {i : Nat} {name : String} :
    wordAt? ts i = some name ↔ ∃ start stop, ts[i]? = some ⟨.word name, start, stop⟩ := by
  unfold wordAt?
  split
  · rename_i listed
    simp [listed]
  · rename_i other
    simp only [reduceCtorEq, false_iff]
    rintro ⟨start, stop, listed⟩
    exact other name start stop listed

theorem textAt?_eq_some {ts : List Token} {i : Nat} {value : String} :
    textAt? ts i = some value ↔ ∃ quote start stop, ts[i]? = some ⟨.quoted value quote, start, stop⟩ := by
  unfold textAt?
  split
  · rename_i listed
    simp [listed]
  · rename_i other
    simp only [reduceCtorEq, false_iff]
    rintro ⟨quote, start, stop, listed⟩
    exact other value quote start stop listed

theorem hasMark_iff {ts : List Token} {i : Nat} {c : Char} :
    hasMark ts i c = true ↔ ∃ start stop, ts[i]? = some ⟨.mark c, start, stop⟩ := by
  unfold hasMark
  split
  · rename_i t listed
    rw [Token.isMark_iff, listed]
    obtain ⟨lexeme, start, stop⟩ := t
    simp
  · rename_i missing
    simp [missing]

/-- Where a parenthesis is open, the scan for the one that closes it never closes more than are open. -/
theorem closeFrom_eq (depth position : Nat) (ts : List Token) :
    closeFrom (depth + 1) position ts =
      .ok ((splitClose depth ts).map fun (inner, _, _) => position + inner.length) := by
  induction ts generalizing depth position with
  | nil => rfl
  | cons t ts ih =>
    -- A token that is passed over makes what lies inside one longer.
    have passed (next : Nat) : closeFrom (next + 1) (position + 1) ts =
        .ok (((splitClose next ts).map fun (inner, close, rest) => (t :: inner, close, rest)).map
          fun (inner, _, _) => position + inner.length) := by
      rw [ih, Option.map_map]
      congr 2
      funext found
      simp only [Function.comp, List.length_cons]
      omega
    by_cases opens : t.isMark '(' = true
    · have notClosing : t.isMark ')' = false := by
        rw [Token.isMark_iff] at opens
        simp [Token.isMark, opens]
      simp only [closeFrom, splitClose, opens, notClosing, ↓reduceIte, Bool.false_eq_true]
      exact passed (depth + 1)
    · by_cases closes : t.isMark ')' = true
      · cases depth with
        | zero => simp [closeFrom, splitClose, opens, closes]
        | succ outer =>
          simp only [closeFrom, splitClose, opens, closes, ↓reduceIte, Bool.false_eq_true]
          exact passed outer
      · simp only [closeFrom, splitClose, opens, closes, ↓reduceIte, Bool.false_eq_true]
        exact passed depth

/-- A parenthesis that closes none is a fault, if it is what is looked from. -/
example : closeFrom 0 0 [⟨.mark ')', 0, 1⟩] = .error .unbalanced := rfl

section
variable {source : List Char} {ts : List Token} {i : Nat}

theorem opening?_eq_some_iff {receiver method : String} {opening : Nat} :
    opening? ts i = some (receiver, method, opening) ↔
      wordAt? ts i = some receiver ∧ hasMark ts (i + 1) '.' = true ∧ wordAt? ts (i + 2) = some method ∧
        hasMark ts (i + 3) ':' = true ∧ hasMark ts (i + 4) '(' = true ∧ opening = i + 4 := by
  unfold opening?
  split
  · rename_i receiver' method' first second
    simp only [Option.ite_none_right_eq_some, Bool.and_eq_true, Option.some.injEq, Prod.mk.injEq, first, second]
    constructor
    · rintro ⟨⟨⟨point, colon⟩, opens⟩, rfl, rfl, rfl⟩
      exact ⟨rfl, point, rfl, colon, opens, rfl⟩
    · rintro ⟨rfl, point, rfl, colon, opens, rfl⟩
      exact ⟨⟨⟨point, colon⟩, opens⟩, rfl, rfl, rfl⟩
  · rename_i missing
    simp only [reduceCtorEq, false_iff]
    rintro ⟨first, -, second, -⟩
    exact missing receiver method first second

/-- The tokens behind the opening of a call at a position are the tokens of its inside and all after them. -/
theorem call?_of_opening? (source : List Char) {receiver method : String} {opening : Nat}
    (found : opening? ts i = some (receiver, method, opening)) :
    opening = i + 4 ∧ ∃ opened, ts[i + 4]? = some opened ∧ opened.isMark '(' = true ∧
      call? source (ts.drop i) = (splitClose 0 (ts.drop (i + 5))).map fun (inner, close, _) =>
        { receiver, method, inner, text := slice source opened.stop close.start } := by
  obtain ⟨first, point, second, colon, opens, rfl⟩ := opening?_eq_some_iff.mp found
  obtain ⟨_, _, first⟩ := wordAt?_eq_some.mp first
  obtain ⟨_, _, point⟩ := hasMark_iff.mp point
  obtain ⟨_, _, second⟩ := wordAt?_eq_some.mp second
  obtain ⟨_, _, colon⟩ := hasMark_iff.mp colon
  obtain ⟨_, _, opens⟩ := hasMark_iff.mp opens
  refine ⟨rfl, _, opens, by simp [Token.isMark], ?_⟩
  rw [drop_of_getElem? first, drop_of_getElem? point, drop_of_getElem? second, drop_of_getElem? colon,
    drop_of_getElem? opens]
  rfl

theorem call?_of_opening?_eq_none (missing : opening? ts i = none) : call? source (ts.drop i) = none := by
  unfold call?
  split
  · rename_i receiver a b c d method e f g h j opened rest split
    have listed (k : Nat) : ts[i + k]? = (ts.drop i)[k]? := List.getElem?_drop.symm
    have found : opening? ts i = some (receiver, method, i + 4) := by
      refine opening?_eq_some_iff.mpr ⟨?_, ?_, ?_, ?_, ?_, rfl⟩
      · exact wordAt?_eq_some.mpr ⟨a, b, by simpa [split] using listed 0⟩
      · exact hasMark_iff.mpr ⟨c, d, by simpa [split] using listed 1⟩
      · exact wordAt?_eq_some.mpr ⟨e, f, by simpa [split] using listed 2⟩
      · exact hasMark_iff.mpr ⟨g, h, by simpa [split] using listed 3⟩
      · exact hasMark_iff.mpr ⟨j, opened, by simpa [split] using listed 4⟩
    cases missing.symm.trans found
  · rfl

theorem close?_eq {opened : Token} (listed : ts[i]? = some opened) (opens : opened.isMark '(' = true) :
    close? ts i = .ok ((splitClose 0 (ts.drop (i + 1))).map fun (inner, _, _) => i + 1 + inner.length) := by
  have mark : hasMark ts i '(' = true := by simp [hasMark, listed, opens]
  rw [close?, if_pos mark, drop_of_getElem? listed, closeFrom, if_pos opens]
  exact closeFrom_eq 0 (i + 1) _

/-- Between two tokens of a source there is always a text. -/
theorem between_eq (tiles : Tiles source ts) {j : Nat} {first last : Token} (listed : ts[i]? = some first)
    (listed' : ts[j]? = some last) (ordered : i < j) :
    between source ts i j = .ok (slice source first.stop last.start) := by
  have forward : first.stop ≤ last.start := by
    obtain ⟨inside, rfl⟩ := List.getElem?_eq_some_iff.mp listed
    obtain ⟨inside', rfl⟩ := List.getElem?_eq_some_iff.mp listed'
    exact List.pairwise_iff_getElem.mp tiles.apart i j inside inside' ordered
  have starts := (tiles.fits first (List.mem_of_getElem? listed)).stops
  have stops := (tiles.fits last (List.mem_of_getElem? listed')).starts
  simp only [between, listed, listed', if_pos ordered, cut_eq_ok forward starts stops]

/-- Behind the opening of a call either no parenthesis closes it and there is no call, or the call is there with the
    text up to the one that does. -/
theorem close?_cases (tiles : Tiles source ts) {receiver method : String} {opening : Nat}
    (found : opening? ts i = some (receiver, method, opening)) :
    close? ts opening = .ok none ∧ call? source (ts.drop i) = none ∨
      ∃ c : Call, call? source (ts.drop i) = some c ∧ c.receiver = receiver ∧ c.method = method ∧
        opening = i + 4 ∧ close? ts opening = .ok (some (opening + 1 + c.inner.length)) ∧
        between source ts opening (opening + 1 + c.inner.length) = .ok c.text := by
  obtain ⟨rfl, opened, listed, opens, called⟩ := call?_of_opening? source found
  rw [close?_eq listed opens, called]
  cases split : splitClose 0 (ts.drop (i + 5)) with
  | none => exact .inl ⟨rfl, rfl⟩
  | some parts =>
    obtain ⟨inner, close, rest⟩ := parts
    have whole := (splitClose_eq_some_iff.mp split).1
    have listed' : ts[i + 4 + 1 + inner.length]? = some close := by
      have place : (ts.drop (i + 5))[inner.length]? = some close := by simp [whole]
      rwa [List.getElem?_drop] at place
    exact .inr ⟨_, rfl, rfl, rfl, rfl, rfl, between_eq tiles listed listed' (by omega)⟩

theorem print_eq (tiles : Tiles source ts) (i : Nat) :
    print source ts i = .ok ((print? source (ts.drop i)).map fun (found, size) => (found, i + size)) := by
  unfold print print?
  cases found : opening? ts i with
  | none => simp [call?_of_opening?_eq_none found]
  | some parts =>
    obtain ⟨receiver, method, opening⟩ := parts
    rcases close?_cases tiles found with ⟨unclosed, none⟩ | ⟨c, called, rfl, rfl, rfl, closed, text⟩
    · simp only [unclosed, none]
      split <;> rfl
    · have same : (decide (c.receiver = "console") && decide (c.method = "log")) = c.isPrint := rfl
      simp only [closed, called, same]
      cases c.isPrint with
      | false => rfl
      | true =>
        have next : i + 4 + 1 + c.inner.length + 1 = i + c.size := by
          rw [Call.size]
          omega
        simp only [↓reduceIte, Option.map_some, ← next, bind, Except.bind, text, expr_eq]
        rfl

/-- A print is found at one of some positions exactly when a print begins at one of them. -/
theorem exists_printAmong (tiles : Tiles source ts) (first count : Nat) :
    ∃ found, printAmong source ts first count = .ok found ∧
      (found = true ↔ ∃ j < count, BeginsPrint (ts.drop (first + j))) := by
  induction count generalizing first with
  | zero => exact ⟨false, rfl, by simp⟩
  | succ count ih =>
    rw [printAmong, print_eq tiles]
    cases here : print? source (ts.drop first) with
    | some found => exact ⟨true, rfl, by simpa using ⟨0, by omega, (print?_eq_some here).2⟩⟩
    | none =>
      obtain ⟨found, rest, iff⟩ := ih (first + 1)
      refine ⟨found, rest, iff.trans ?_⟩
      constructor
      · rintro ⟨j, inside, begins⟩
        exact ⟨j + 1, by omega, by rwa [Nat.add_assoc, Nat.add_comm 1 j] at begins⟩
      · rintro ⟨j, inside, begins⟩
        cases j with
        | zero => exact absurd begins (print?_eq_none here)
        | succ j => exact ⟨j, by omega, by rwa [Nat.add_assoc, Nat.add_comm 1 j]⟩

/-- The prints that begin inside the parentheses of a call end there as well. -/
theorem beginsPrint_inside_iff {inner : List Token} {close : Token} (balanced : Balanced inner)
    (closing : close.lexeme = .mark ')') (rest : List Token) :
    (∃ j < inner.length, BeginsPrint ((inner ++ close :: rest).drop j)) ↔ ∃ j, BeginsPrint (inner.drop j) := by
  constructor
  · rintro ⟨j, inside, begins⟩
    rw [List.drop_append_of_le_length (by omega)] at begins
    obtain ⟨within, begins⟩ := begins
    exact ⟨j, within, begins.within closing (balanced.opened_drop_le j)⟩
  · rintro ⟨j, begins⟩
    have inside : j < inner.length := by
      by_contra beyond
      rw [List.drop_of_length_le (by omega)] at begins
      exact not_beginsPrint_nil begins
    obtain ⟨within, begins⟩ := begins
    refine ⟨j, inside, within, ?_⟩
    rw [List.drop_append_of_le_length (by omega)]
    exact begins.append _

theorem call_eq (tiles : Tiles source ts) (i : Nat) :
    call source ts i = .ok ((callStatement? source (ts.drop i)).map fun (found, size) => (found, i + size)) := by
  unfold call callStatement?
  cases found : opening? ts i with
  | none => simp [call?_of_opening?_eq_none found]
  | some parts =>
    obtain ⟨receiver, method, opening⟩ := parts
    rcases close?_cases tiles found with ⟨unclosed, none⟩ | ⟨c, called, rfl, rfl, rfl, closed, text⟩
    · simp only [unclosed, none]
      rfl
    · have next : i + 4 + 1 + c.inner.length + 1 = i + c.size := by
        rw [Call.size]
        omega
      have count : i + 4 + 1 + c.inner.length - (i + 4 + 1) = c.inner.length := by omega
      obtain ⟨prints, among, iff⟩ := exists_printAmong tiles (i + 4 + 1) c.inner.length
      obtain ⟨opening, close, rest, split, spelled, balanced, closing⟩ := call?_eq_some called
      have five := length_of_opening spelled
      have inside : ts.drop (i + 4 + 1) = c.inner ++ close :: rest := by
        have dropped := congrArg (List.drop 5) split
        rw [List.drop_drop, List.append_assoc, ← five, List.drop_left] at dropped
        simpa [five] using dropped
      have same : prints = hasPrint source c.inner := by
        apply Bool.eq_iff_iff.mpr
        rw [iff, hasPrint_eq_true_iff, ← beginsPrint_inside_iff balanced closing rest, ← inside]
        simp only [List.drop_drop]
      simp only [bind, Except.bind, closed, called, count, among, same]
      cases hasPrint source c.inner with
      | true => rfl
      | false =>
        simp only [Bool.false_eq_true, ↓reduceIte, text, Option.map_some, ← next]
        rfl

theorem bind?_eq_some_iff {found : Statement} {next : Nat} :
    bind? ts i = some (found, next) ↔ ∃ word keyword name window,
      (wordAt? ts i = some word ∧ wordAt? ts (i + 1) = some name ∧ hasMark ts (i + 2) '=' = true ∧
        wordAt? ts (i + 3) = some "window" ∧ hasMark ts (i + 4) '(' = true ∧ textAt? ts (i + 5) = some window ∧
        hasMark ts (i + 6) ')' = true) ∧
      Keyword.ofName? word = some keyword ∧ window ≠ "" ∧ found = .bind keyword name window ∧ next = i + 7 := by
  simp only [bind?, Option.bind_eq_bind, Option.bind_eq_some_iff, Option.ite_none_right_eq_some, Bool.and_eq_true,
    decide_eq_true_eq, Option.some.injEq, Prod.mk.injEq]
  constructor
  · rintro ⟨word, first, keyword, known, name, second, callee, third, window, text,
      ⟨⟨⟨⟨equals, rfl⟩, opens⟩, closes⟩, nonempty⟩, rfl, rfl⟩
    exact ⟨word, keyword, name, window, ⟨first, second, equals, third, opens, text, closes⟩, known, nonempty, rfl, rfl⟩
  · rintro ⟨word, keyword, name, window, ⟨first, second, equals, third, opens, text, closes⟩, known, nonempty, rfl, rfl⟩
    exact ⟨word, first, keyword, known, name, second, "window", third, window, text,
      ⟨⟨⟨⟨equals, rfl⟩, opens⟩, closes⟩, nonempty⟩, rfl, rfl⟩

theorem bind?_eq (ts : List Token) (i : Nat) :
    bind? ts i = (binding? (ts.drop i)).map fun (found, size) => (found, i + size) := by
  cases binds : binding? (ts.drop i) with
  | some parts =>
    obtain ⟨statement, size⟩ := parts
    refine bind?_eq_some_iff.mpr ?_
    have listed (k : Nat) : ts[i + k]? = (ts.drop i)[k]? := List.getElem?_drop.symm
    unfold binding? at binds
    split at binds
    · rename_i keyword _ _ name _ _ _ _ _ _ _ _ window _ _ _ _ _ rest split
      split at binds
      · rename_i k known
        split at binds
        · cases binds
        · rename_i nonempty
          simp only [Option.some.injEq, Prod.mk.injEq] at binds
          obtain ⟨rfl, rfl⟩ := binds
          rw [split] at listed
          refine ⟨keyword, k, name, window, ⟨?_, ?_, ?_, ?_, ?_, ?_, ?_⟩, known, nonempty, rfl, rfl⟩
          · exact wordAt?_eq_some.mpr ⟨_, _, listed 0⟩
          · exact wordAt?_eq_some.mpr ⟨_, _, listed 1⟩
          · exact hasMark_iff.mpr ⟨_, _, listed 2⟩
          · exact wordAt?_eq_some.mpr ⟨_, _, listed 3⟩
          · exact hasMark_iff.mpr ⟨_, _, listed 4⟩
          · exact textAt?_eq_some.mpr ⟨_, _, _, listed 5⟩
          · exact hasMark_iff.mpr ⟨_, _, listed 6⟩
      · cases binds
    · cases binds
  | none =>
    refine Option.eq_none_iff_forall_ne_some.mpr ?_
    rintro ⟨statement, next⟩ found
    obtain ⟨word, keyword, name, window, ⟨first, second, equals, callee, opens, text, closes⟩, known, nonempty, -⟩ :=
      bind?_eq_some_iff.mp found
    obtain ⟨_, _, first⟩ := wordAt?_eq_some.mp first
    obtain ⟨_, _, second⟩ := wordAt?_eq_some.mp second
    obtain ⟨_, _, equals⟩ := hasMark_iff.mp equals
    obtain ⟨_, _, callee⟩ := wordAt?_eq_some.mp callee
    obtain ⟨_, _, opens⟩ := hasMark_iff.mp opens
    obtain ⟨_, _, _, text⟩ := textAt?_eq_some.mp text
    obtain ⟨_, _, closes⟩ := hasMark_iff.mp closes
    rw [drop_of_getElem? first, drop_of_getElem? second, drop_of_getElem? equals, drop_of_getElem? callee,
      drop_of_getElem? opens, drop_of_getElem? text, drop_of_getElem? closes] at binds
    simp [binding?, known, nonempty] at binds

/-- A statement has at least one of the tokens that begin with it, and no more than there are. -/
theorem statement?_size {us : List Token} {found : Statement} {size : Nat}
    (read : statement? source us = some (found, size)) : 0 < size ∧ size ≤ us.length := by
  rcases Option.or_eq_some_iff.mp read with prints | ⟨-, read⟩
  · unfold print? at prints
    split at prints
    · rename_i c calls
      simp only [Option.ite_none_right_eq_some, Option.some.injEq, Prod.mk.injEq] at prints
      exact prints.2.2 ▸ call?_size calls
    · cases prints
  · rcases Option.or_eq_some_iff.mp read with binds | ⟨-, calls⟩
    · obtain ⟨-, rfl, -⟩ := binding?_covers_no_print binds
      unfold binding? at binds
      split at binds
      · simp
      · cases binds
    · unfold callStatement? at calls
      split at calls
      · rename_i c inside
        simp only [Option.ite_none_left_eq_some, Option.some.injEq, Prod.mk.injEq] at calls
        exact calls.2.2 ▸ call?_size inside
      · cases calls

/-- What is found at a position is the statement that the tokens from there on begin with. -/
theorem statement_eq (tiles : Tiles source ts) (i : Nat) :
    statement source ts i = .ok ((statement? source (ts.drop i)).map fun (found, size) => (found, i + size)) := by
  simp only [statement, print_eq tiles, bind?_eq, call_eq tiles, statement?, bind, Except.bind]
  cases print? source (ts.drop i) with
  | some found => rfl
  | none =>
    cases binding? (ts.drop i) with
    | some found => rfl
    | none => rfl

/-- What is found lies one after another between two positions, each with at least one token. -/
structure Ordered (start stop : Nat) (found : List Found) : Prop where
  progress : ∀ f ∈ found, f.first < f.next
  behind : ∀ f ∈ found, start ≤ f.first
  inside : ∀ f ∈ found, f.next ≤ stop
  apart : found.Pairwise fun f g => f.next ≤ g.first

theorem Ordered.weaken {start earlier stop : Nat} {found : List Found} (ordered : Ordered start stop found)
    (before : earlier ≤ start) : Ordered earlier stop found :=
  ⟨ordered.progress, fun f member => Nat.le_trans before (ordered.behind f member), ordered.inside, ordered.apart⟩

theorem Ordered.cons {first next stop : Nat} {found : List Found} {statement : Statement}
    (ordered : Ordered next stop found) (forward : first < next) (within : next ≤ stop) :
    Ordered first stop (⟨statement, first, next⟩ :: found) := by
  have later := ordered.weaken (Nat.le_of_lt forward)
  exact ⟨List.forall_mem_cons.mpr ⟨forward, later.progress⟩, List.forall_mem_cons.mpr ⟨Nat.le_refl _, later.behind⟩,
    List.forall_mem_cons.mpr ⟨within, later.inside⟩, List.pairwise_cons.mpr ⟨ordered.behind, later.apart⟩⟩

theorem exists_scan (tiles : Tiles source ts) (i : Nat) :
    ∃ found, scan source ts i = .ok found ∧ found.map (·.statement) = statements source (ts.drop i) ∧
      Ordered i ts.length found := by
  induction rest : ts.length - i using Nat.strong_induction_on generalizing i with
  | _ n ih =>
    rw [scan, statement_eq tiles]
    by_cases inside : i < ts.length
    · rw [if_pos inside, List.drop_eq_getElem_cons inside]
      cases read : statement? source (ts[i] :: ts.drop (i + 1)) with
      | none =>
        obtain ⟨found, scanned, same, ordered⟩ := ih (ts.length - (i + 1)) (by omega) (i + 1) rfl
        refine ⟨found, scanned, ?_, ordered.weaken (Nat.le_succ i)⟩
        rw [statements, read]
        exact same
      | some parts =>
        obtain ⟨statement, size⟩ := parts
        obtain ⟨positive, short⟩ := statement?_size read
        rw [← List.drop_eq_getElem_cons inside, List.length_drop] at short
        obtain ⟨found, scanned, same, ordered⟩ := ih (ts.length - (i + size)) (by omega) (i + size) rfl
        refine ⟨⟨statement, i, i + size⟩ :: found, ?_, ?_, ordered.cons (by omega) (by omega)⟩
        · simp only [Option.map_some, scanned, if_pos (Nat.lt_add_of_pos_right positive)]
          rfl
        · have after : (ts.drop (i + 1)).drop (size - 1) = ts.drop (i + size) := by
            rw [List.drop_drop]
            congr 1
            omega
          rw [statements, read]
          simp only [List.map_cons, same, after]
    · rw [if_neg inside, List.drop_of_length_le (by omega), statements]
      exact ⟨[], rfl, rfl, ⟨by simp, by simp, by simp, .nil⟩⟩

end

/-- A scan of the tokens of a source takes no step where it makes no sense, and what it finds, one after another, are
    the statements of the program. -/
theorem scan_tokens (source : String) :
    ∃ found, scan source.toList (tokens source.toList) 0 = .ok found ∧
      found.map (·.statement) = (Program.ofSource source).statements ∧
      Ordered 0 (tokens source.toList).length found :=
  exists_scan (tiles_tokens source) 0

end Guarded

end DesktopShell.Script
