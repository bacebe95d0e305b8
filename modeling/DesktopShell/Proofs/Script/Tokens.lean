import DesktopShell.Proofs.Text
import DesktopShell.Script.Program
import Mathlib.Data.List.TakeWhile
import Mathlib.Tactic.Common

/-!
# Tokens and their source

How a source is read from its beginning: blanks are passed over, and a mark, a name or
a quoted text makes one token when nothing after it belongs to it. A text without quotes
is read in front of a closing parenthesis as it is read by itself
(`tokensFrom_append_close`). Each token covers the bytes of a part of the source that is
written as the token is, and what comes after it does not belong to it (`Token.Fits`). The
tokens stand one after another, and only blanks lie between them (`tiles_tokens`).

A text is read as one quoted text in two ways: as a single token, and as an expression
that is printed. The expression only asks for equal quotes at the two ends
(`Expr.ofChars_eq_text_iff`); the token also needs that the quote does not occur between
them (`tokens_eq_quoted_iff`). So a single quoted token is always printed without its
quotes, and several quoted texts in a row may be printed as if they were one.
-/
namespace DesktopShell.Script

theorem byteLength_append (cs ds : List Char) : byteLength (cs ++ ds) = byteLength cs + byteLength ds := by
  induction cs with
  | nil => simp [byteLength]
  | cons c cs ih => simp [byteLength, ih, Nat.add_assoc]

private theorem byteLength_cons (c : Char) (cs : List Char) :
    byteLength (c :: cs) ≠ 0 ∧ byteLength (c :: cs) - c.utf8Size = byteLength cs := by
  have positive := c.utf8Size_pos
  rw [byteLength]
  omega

theorem dropBytes_byteLength (cs ds : List Char) : dropBytes (byteLength cs) (cs ++ ds) = ds := by
  induction cs with
  | nil => rw [byteLength, List.nil_append, dropBytes]
  | cons c cs ih =>
    obtain ⟨positive, left⟩ := byteLength_cons c cs
    rw [List.cons_append, dropBytes, left, ih]
    exact positive

theorem takeBytes_byteLength (cs ds : List Char) : takeBytes (byteLength cs) (cs ++ ds) = cs := by
  induction cs with
  | nil => rw [byteLength, List.nil_append, takeBytes]
  | cons c cs ih =>
    obtain ⟨positive, left⟩ := byteLength_cons c cs
    rw [List.cons_append, takeBytes, left, ih]
    exact positive

/-- A part of a source lies between the byte it begins at and the one after its last. -/
theorem slice_append (before part after : List Char) :
    slice (before ++ part ++ after) (byteLength before) (byteLength before + byteLength part) = part := by
  rw [slice, Nat.add_sub_cancel_left, List.append_assoc, dropBytes_byteLength, takeBytes_byteLength]

/-- A character that no word, number or quoted text begins with. -/
def isPunctuation (c : Char) : Bool :=
  !startsWord c && !Number.isDigit c && !Text.isBlank c && c != '"' && c != '\''

theorem isBlank_of_startsWord {c : Char} (starts : startsWord c = true) : Text.isBlank c = false := by
  have alpha : c.isAlpha = (decide ('A'.val ≤ c.val ∧ c.val ≤ 'Z'.val) ||
      decide ('a'.val ≤ c.val) && decide (c.val ≤ 'z'.val)) := rfl
  have ascii : 65 ≤ c.toNat ∧ c.toNat ≤ 122 := by
    simp only [startsWord, alpha, Bool.or_eq_true, Bool.and_eq_true, decide_eq_true_eq, beq_iff_eq] at starts
    change ((65 ≤ c.toNat ∧ c.toNat ≤ 90) ∨ (97 ≤ c.toNat ∧ c.toNat ≤ 122)) ∨ c = '_' at starts
    rcases starts with (upper | lower) | rfl
    · omega
    · omega
    · decide
  simp [Text.isBlank, Text.blankRanges]
  omega

theorem tokensFrom_blank {c : Char} (blank : Text.isBlank c = true) (offset : Nat) (cs : List Char) :
    tokensFrom offset (c :: cs) = tokensFrom (offset + c.utf8Size) cs := by
  rw [tokensFrom, if_pos blank]

theorem tokensFrom_cons {c : Char} (solid : Text.isBlank c = false) (offset : Nat) (cs : List Char) :
    tokensFrom offset (c :: cs) =
      ⟨(Lexeme.begin c cs).1, offset, offset + byteLength (c :: cs.take (Lexeme.begin c cs).2)⟩ ::
        tokensFrom (offset + byteLength (c :: cs.take (Lexeme.begin c cs).2)) (cs.drop (Lexeme.begin c cs).2) := by
  rw [tokensFrom, if_neg (by simp [solid])]

theorem tokensFrom_blanks {gap : List Char} (blank : ∀ c ∈ gap, Text.isBlank c = true) (offset : Nat)
    (rest : List Char) : tokensFrom offset (gap ++ rest) = tokensFrom (offset + byteLength gap) rest := by
  induction gap generalizing offset with
  | nil => rfl
  | cons c gap ih =>
    rw [List.cons_append, tokensFrom_blank (blank c (by simp)), ih fun d member => blank d (by simp [member])]
    rw [byteLength, Nat.add_assoc]

theorem tokensFrom_mark {c : Char} (punctuation : isPunctuation c = true) (offset : Nat) (rest : List Char) :
    tokensFrom offset (c :: rest) = ⟨.mark c, offset, offset + c.utf8Size⟩ :: tokensFrom (offset + c.utf8Size) rest := by
  simp only [isPunctuation, Bool.and_eq_true, Bool.not_eq_true', bne_iff_ne] at punctuation
  obtain ⟨⟨⟨⟨letter, digit⟩, solid⟩, double⟩, single⟩ := punctuation
  have begins : Lexeme.begin c rest = (.mark c, 0) := by
    simp [Lexeme.begin, letter, digit, double, single]
  rw [tokensFrom_cons solid, begins]
  rfl

/-- A text that is one word of a script. -/
def IsName (name : String) : Prop :=
  ∃ c cs, name.toList = c :: cs ∧ startsWord c = true ∧ cs.all continuesWord = true

theorem tokensFrom_name {name : String} (proper : IsName name) {rest : List Char}
    (stop : ∀ c ∈ rest.head?, continuesWord c = false) (offset : Nat) :
    tokensFrom offset (name.toList ++ rest) = ⟨.word name, offset, offset + byteLength name.toList⟩ ::
      tokensFrom (offset + byteLength name.toList) rest := by
  obtain ⟨c, cs, spelled, starts, continues⟩ := proper
  have whole : (cs ++ rest).takeWhile continuesWord = cs := by
    rw [List.takeWhile_append_of_pos (List.all_eq_true.mp continues)]
    cases rest with
    | nil => simp
    | cons d ds => simp [stop d rfl]
  have begins : Lexeme.begin c (cs ++ rest) = (.word name, cs.length) := by
    simp only [Lexeme.begin, starts, ↓reduceIte, whole, ← spelled, String.ofList_toList]
  rw [spelled, List.cons_append, tokensFrom_cons (isBlank_of_startsWord starts), begins]
  simp

/-- A character that may begin a quoted text. -/
def isQuote (c : Char) : Bool := c == '"' || c == '\''

theorem isBlank_of_isQuote {c : Char} (quote : isQuote c = true) : Text.isBlank c = false := by
  rcases (by simpa [isQuote] using quote : c = '"' ∨ c = '\'') with rfl | rfl <;> decide

theorem tokensFrom_quoted {quote : Char} (isQuoted : isQuote quote = true) {value : List Char}
    (unquoted : quote ∉ value) (offset : Nat) (rest : List Char) :
    tokensFrom offset (quote :: (value ++ quote :: rest)) =
      ⟨.quoted (String.ofList value) quote, offset, offset + byteLength (quote :: (value ++ [quote]))⟩ ::
        tokensFrom (offset + byteLength (quote :: (value ++ [quote]))) rest := by
  have other : ∀ d ∈ value, (d != quote) = true := by
    intro d member
    rw [bne_iff_ne]
    rintro rfl
    exact unquoted member
  have whole : (value ++ quote :: rest).takeWhile (fun d => d != quote) = value := by
    rw [List.takeWhile_append_of_pos other]
    simp
  have either : quote = '"' ∨ quote = '\'' := by simpa [isQuote] using isQuoted
  have begins : Lexeme.begin quote (value ++ quote :: rest) = (.quoted (String.ofList value) quote, value.length + 1) := by
    have plain : startsWord quote = false ∧ Number.isDigit quote = false := by
      rcases either with rfl | rfl <;> decide
    simp [Lexeme.begin, plain, whole, either]
  have split : value ++ quote :: rest = value ++ [quote] ++ rest := by simp
  have length : value.length + 1 = (value ++ [quote]).length := by simp
  rw [tokensFrom_cons (isBlank_of_isQuote isQuoted), begins, split, length, List.take_left, List.drop_left]

theorem takeWhile_append_close {p : Char → Bool} (stop : p ')' = false) (cs rest : List Char) :
    (cs ++ ')' :: rest).takeWhile p = cs.takeWhile p := by
  induction cs with
  | nil => simp [stop]
  | cons c cs ih => simp only [List.cons_append, List.takeWhile_cons, ih]

theorem numberTail_append_close (cs rest : List Char) : numberTail (cs ++ ')' :: rest) = numberTail cs := by
  have stop : Number.isDigit ')' = false := by decide
  have after : (cs ++ ')' :: rest).dropWhile Number.isDigit = cs.dropWhile Number.isDigit ++ ')' :: rest := by
    rw [List.dropWhile_append]
    split <;> simp_all
  unfold numberTail
  rw [takeWhile_append_close stop, after]
  cases cs.dropWhile Number.isDigit with
  | nil => rfl
  | cons c ds =>
    by_cases point : c = '.'
    · simp [point, takeWhile_append_close stop]
    · simp [point]

theorem length_numberTail_le (cs : List Char) : (numberTail cs).length ≤ cs.length := by
  have whole := congrArg List.length (List.takeWhile_append_dropWhile (p := Number.isDigit) (l := cs))
  rw [List.length_append] at whole
  simp only [numberTail]
  split
  · rename_i rest dropped
    have fraction := (List.takeWhile_prefix (l := rest) Number.isDigit).length_le
    rw [dropped, List.length_cons] at whole
    split
    · omega
    · simp
      omega
  · omega

/-- A closing parenthesis belongs to no token that begins before it, except to a quoted text. -/
theorem Lexeme.begin_append_close {c : Char} {cs : List Char} (plain : c ≠ '"' ∧ c ≠ '\'') (rest : List Char) :
    Lexeme.begin c (cs ++ ')' :: rest) = Lexeme.begin c cs ∧ (Lexeme.begin c cs).2 ≤ cs.length := by
  have stop : continuesWord ')' = false := by decide
  simp only [Lexeme.begin, plain, or_self, false_and, ↓reduceIte, takeWhile_append_close stop, numberTail_append_close,
    true_and]
  have word := (List.takeWhile_prefix (l := cs) continuesWord).length_le
  have number := length_numberTail_le cs
  split
  · exact word
  · split
    · exact number
    · exact Nat.zero_le _

/-- A text without quotes has the same tokens in front of a closing parenthesis as by itself. -/
theorem tokensFrom_append_close {cs : List Char} (plain : ∀ c ∈ cs, c ≠ '"' ∧ c ≠ '\'') (offset : Nat)
    (rest : List Char) : tokensFrom offset (cs ++ ')' :: rest) =
      tokensFrom offset cs ++ tokensFrom (offset + byteLength cs) (')' :: rest) := by
  induction offset, cs using tokensFrom.induct with
  | case1 offset => simp [tokensFrom, byteLength]
  | case2 offset c cs blank ih =>
    rw [List.cons_append, tokensFrom_blank blank, tokensFrom_blank blank, ih fun d member => plain d (by simp [member])]
    rw [byteLength, Nat.add_assoc]
  | case3 offset c cs solid lexeme more begins stop ih =>
    have solid : Text.isBlank c = false := by simpa using solid
    obtain ⟨same, inside⟩ := @Lexeme.begin_append_close c cs (plain c (by simp)) rest
    rw [begins] at same inside
    -- The token ends before the parenthesis, and what is left of the text stands in front of it as well.
    have ahead := ih fun d member => plain d (List.mem_cons_of_mem c (List.mem_of_mem_drop member))
    have split : stop + byteLength (cs.drop more) = offset + byteLength (c :: cs) := by
      simp only [stop, Nat.add_assoc, ← byteLength_append, List.cons_append, List.take_append_drop]
    rw [List.cons_append, tokensFrom_cons solid, tokensFrom_cons solid, same, begins]
    simp only [List.take_append_of_le_length inside, List.drop_append_of_le_length inside, List.cons_append]
    rw [← split, ← ahead]

theorem Lexeme.eq_of_begin_mark {c d : Char} {cs : List Char} (mark : (Lexeme.begin c cs).1 = .mark d) : d = c := by
  unfold Lexeme.begin at mark
  split at mark
  · cases mark
  · split at mark
    · cases mark
    · split at mark
      · cases mark
      · cases mark
        rfl

/-- The marks among the tokens of a text are characters of it. -/
theorem mem_of_mark {cs : List Char} {t : Token} {d : Char} (offset : Nat) (member : t ∈ tokensFrom offset cs)
    (mark : t.lexeme = .mark d) : d ∈ cs := by
  induction offset, cs using tokensFrom.induct with
  | case1 offset => simp [tokensFrom] at member
  | case2 offset c cs blank ih =>
    rw [tokensFrom_blank blank] at member
    exact List.mem_cons_of_mem c (ih member)
  | case3 offset c cs solid lexeme more begins stop ih =>
    rw [tokensFrom_cons (by simpa using solid), begins] at member
    rcases List.mem_cons.mp member with rfl | later
    · have same : d = c := @Lexeme.eq_of_begin_mark c d cs (by rw [begins]; exact mark)
      simp [same]
    · exact List.mem_cons_of_mem c (List.mem_of_mem_drop (ih later))

/-- The characters that a lexeme is written with. -/
def Lexeme.written : Lexeme → List Char
  | .word name => name.toList
  | .number digits => digits.toList
  | .quoted value quote => quote :: (value.toList ++ [quote])
  | .mark c => [c]

/-- Digits, or digits on both sides of a point. -/
def IsUnsigned (digits : List Char) : Prop :=
  ∃ whole, whole ≠ [] ∧ whole.all Number.isDigit = true ∧ (digits = whole ∨
    ∃ fraction, fraction ≠ [] ∧ fraction.all Number.isDigit = true ∧ digits = whole ++ '.' :: fraction)

/-- A lexeme of a kind is made as its kind says. No quote stands inside a text between such quotes, and a mark is a
    character that begins no word and no number. -/
def Lexeme.Proper : Lexeme → Prop
  | .word name => IsName name
  | .number digits => IsUnsigned digits.toList
  | .quoted value quote => isQuote quote = true ∧ quote ∉ value.toList
  | .mark c => startsWord c = false ∧ Number.isDigit c = false ∧ Text.isBlank c = false

/-- What comes after a word or a number begins with a character that could belong to it. A point could belong to a
    number without one, if a digit follows the point. -/
def Lexeme.Continues : Lexeme → List Char → Prop
  | .word _, after => ∃ c rest, after = c :: rest ∧ continuesWord c = true
  | .number digits, after => (∃ c rest, after = c :: rest ∧ Number.isDigit c = true) ∨
      '.' ∉ digits.toList ∧ ∃ c rest, after = '.' :: c :: rest ∧ Number.isDigit c = true
  | _, _ => False

/-- A lexeme ends where it must: nothing that comes after it belongs to it, and a quote that is a mark has no partner. -/
structure Lexeme.Ends (lexeme : Lexeme) (after : List Char) : Prop where
  proper : lexeme.Proper
  whole : ¬ lexeme.Continues after
  lone : ∀ quote, isQuote quote = true → lexeme = .mark quote → quote ∉ after

theorem Lexeme.Proper.written_ne_nil {lexeme : Lexeme} (proper : lexeme.Proper) : lexeme.written ≠ [] := by
  cases lexeme with
  | word name =>
    obtain ⟨c, cs, spelled, -⟩ := proper
    simp [Lexeme.written, spelled]
  | number digits =>
    obtain ⟨whole, nonempty, -, same | ⟨fraction, -, -, same⟩⟩ := proper
    · simpa [Lexeme.written, same] using nonempty
    · simp [Lexeme.written, same]
  | quoted value quote => simp [Lexeme.written]
  | mark c => simp [Lexeme.written]

private theorem cut_at_length {cs front rest : List Char} (whole : cs = front ++ rest) :
    cs.take front.length = front ∧ cs.drop front.length = rest := by
  rw [whole]
  exact ⟨List.take_left, List.drop_left⟩

private theorem eq_false_of_dropWhile {p : Char → Bool} {cs rest : List Char} {c : Char}
    (dropped : cs.dropWhile p = c :: rest) : p c = false := by
  have first := List.head?_dropWhile_not p cs
  rw [dropped] at first
  simpa using first

/-- Digits that a digit or a point in front of a digit does not follow are a number to its end. -/
private theorem ends_of_digits {digits after : List Char} (nonempty : digits ≠ [])
    (all : digits.all Number.isDigit = true) (noDigit : ∀ c rest, after = c :: rest → Number.isDigit c = false)
    (noFraction : ∀ c rest, after = '.' :: c :: rest → Number.isDigit c = false) :
    (Lexeme.number (String.ofList digits)).Ends after := by
  refine ⟨?_, ?_, by simp⟩
  · exact ⟨digits, nonempty, all, .inl String.toList_ofList⟩
  · rintro (⟨c, rest, later, digit⟩ | ⟨-, c, rest, later, digit⟩)
    · cases (noDigit c rest later).symm.trans digit
    · cases (noFraction c rest later).symm.trans digit

/-- The digits after the first one of a number are followed by nothing that belongs to the number. -/
private theorem numberTail_ends {c : Char} (digit : Number.isDigit c = true) (cs : List Char) :
    ∃ rest, cs = numberTail cs ++ rest ∧ (Lexeme.number (String.ofList (c :: numberTail cs))).Ends rest := by
  have split := (List.takeWhile_append_dropWhile (p := Number.isDigit) (l := cs)).symm
  have digits : (c :: cs.takeWhile Number.isDigit).all Number.isDigit = true := by simp [digit]
  have noDigit (d : Char) (ds : List Char) (later : cs.dropWhile Number.isDigit = d :: ds) := eq_false_of_dropWhile later
  by_cases pointed : ∃ d ds, cs.dropWhile Number.isDigit = '.' :: d :: ds ∧ Number.isDigit d = true
  · obtain ⟨d, ds, dropped, follows⟩ := pointed
    have fractionSplit := (List.takeWhile_append_dropWhile (p := Number.isDigit) (l := d :: ds)).symm
    generalize fraction : (d :: ds).takeWhile Number.isDigit = fs at fractionSplit
    have nonempty : fs ≠ [] := by
      rw [← fraction, List.takeWhile_cons, if_pos follows]
      simp
    have fractionDigits : fs.all Number.isDigit = true := by
      rw [← fraction]
      simp
    have tail : numberTail cs = cs.takeWhile Number.isDigit ++ '.' :: fs := by
      simp only [numberTail, dropped, fraction]
    refine ⟨(d :: ds).dropWhile Number.isDigit, ?_, ?_, ?_, by simp⟩
    · rw [tail, List.append_assoc, List.cons_append, ← fractionSplit, ← dropped]
      exact split
    · exact ⟨c :: cs.takeWhile Number.isDigit, by simp, digits, .inr ⟨fs, nonempty, fractionDigits, by simp [tail]⟩⟩
    · rintro (⟨e, es, later, isDigit⟩ | ⟨noPoint, -⟩)
      · cases (eq_false_of_dropWhile later).symm.trans isDigit
      · simp [tail] at noPoint
  · have noFraction (d : Char) (ds : List Char) (later : cs.dropWhile Number.isDigit = '.' :: d :: ds) :
        Number.isDigit d = false := by
      rw [← Bool.not_eq_true]
      exact fun follows => pointed ⟨d, ds, later, follows⟩
    have tail : numberTail cs = cs.takeWhile Number.isDigit := by
      unfold numberTail
      cases dropped : cs.dropWhile Number.isDigit with
      | nil => rfl
      | cons first rest =>
        by_cases point : first = '.'
        · subst point
          cases rest with
          | nil => rfl
          | cons d ds => simp [noFraction d ds dropped]
        · simp [point]
    rw [tail]
    exact ⟨cs.dropWhile Number.isDigit, split, ends_of_digits (by simp) digits noDigit noFraction⟩

/-- The lexeme that a character begins is written with the characters that belong to it, and it ends where it must. -/
theorem Lexeme.begin_ends {c : Char} (solid : Text.isBlank c = false) (cs : List Char) :
    c :: cs.take (Lexeme.begin c cs).2 = (Lexeme.begin c cs).1.written ∧
      (Lexeme.begin c cs).1.Ends (cs.drop (Lexeme.begin c cs).2) := by
  unfold Lexeme.begin
  by_cases starts : startsWord c = true
  · obtain ⟨front, rest⟩ := cut_at_length (List.takeWhile_append_dropWhile (p := continuesWord) (l := cs)).symm
    simp only [starts, ↓reduceIte, front, rest]
    refine ⟨by simp [Lexeme.written], ⟨c, _, String.toList_ofList, starts, by simp⟩, ?_, by simp⟩
    rintro ⟨d, ds, after, continues⟩
    cases (eq_false_of_dropWhile after).symm.trans continues
  · by_cases digit : Number.isDigit c = true
    · obtain ⟨rest, whole, ends⟩ := numberTail_ends digit cs
      obtain ⟨front, after⟩ := cut_at_length whole
      simp only [starts, digit, ↓reduceIte, Bool.false_eq_true, front, after]
      exact ⟨by simp [Lexeme.written], ends⟩
    · by_cases paired : (c = '"' ∨ c = '\'') ∧ c ∈ cs
      · have split := (List.takeWhile_append_dropWhile (p := fun d => d != c) (l := cs)).symm
        have unquoted : c ∉ cs.takeWhile fun d => d != c := by
          intro member
          simpa using List.mem_takeWhile_imp member
        obtain ⟨rest, dropped⟩ : ∃ rest, cs.dropWhile (fun d => d != c) = c :: rest := by
          cases dropped : cs.dropWhile fun d => d != c with
          | nil =>
            rw [dropped, List.append_nil] at split
            exact absurd paired.2 (split ▸ unquoted)
          | cons d rest =>
            obtain rfl : d = c := by simpa using eq_false_of_dropWhile dropped
            exact ⟨rest, rfl⟩
        have whole : cs = (cs.takeWhile fun d => d != c) ++ [c] ++ rest := by
          rw [List.append_assoc, List.singleton_append, ← dropped]
          exact split
        obtain ⟨front, after⟩ := cut_at_length whole
        rw [List.length_append, List.length_singleton] at front after
        simp only [starts, digit, paired, and_self, ↓reduceIte, Bool.false_eq_true, front, after]
        have quote : isQuote c = true := by simpa [isQuote] using paired.1
        exact ⟨by simp [Lexeme.written], ⟨quote, by simpa using unquoted⟩, id, by simp⟩
      · simp only [starts, digit, paired, ↓reduceIte, Bool.false_eq_true, List.take_zero, List.drop_zero]
        refine ⟨rfl, ⟨by simpa using starts, by simpa using digit, solid⟩, id, ?_⟩
        rintro quote isQuoted same again
        cases same
        exact paired ⟨by simpa [isQuote] using isQuoted, again⟩

/-- A number of bytes after which a source can be cut, as no character of it lies on both sides. -/
def IsBoundary (source : List Char) (n : Nat) : Prop := ∃ before after, source = before ++ after ∧ n = byteLength before

/-- A token lies in a source as its bytes say, and it ends where it must. -/
structure Token.Fits (source : List Char) (t : Token) : Prop where
  nonempty : t.start < t.stop
  inside : t.stop ≤ byteLength source
  starts : IsBoundary source t.start
  stops : IsBoundary source t.stop
  written : slice source t.start t.stop = t.lexeme.written
  ends : t.lexeme.Ends (dropBytes t.stop source)

/-- Tokens tile what a source has from an offset on: they lie there one after another, and every character that lies in
    none of them is blank. -/
structure TilesFrom (offset : Nat) (source : List Char) (ts : List Token) : Prop where
  fits : ∀ t ∈ ts, t.Fits source
  behind : ∀ t ∈ ts, offset ≤ t.start
  apart : ts.Pairwise fun t u => t.stop ≤ u.start
  blank : ∀ before c after, source = before ++ c :: after → offset ≤ byteLength before →
    (∀ t ∈ ts, byteLength before < t.start ∨ t.stop ≤ byteLength before) → Text.isBlank c = true

/-- Tokens tile a whole source. -/
def Tiles (source : List Char) (ts : List Token) : Prop := TilesFrom 0 source ts

theorem byteLength_pos {cs : List Char} (nonempty : cs ≠ []) : 0 < byteLength cs := by
  cases cs with
  | nil => exact absurd rfl nonempty
  | cons c cs =>
    have positive := c.utf8Size_pos
    rw [byteLength]
    omega

/-- A lexeme between two parts of a source is a token of it, if the second part lets it end. -/
theorem Lexeme.Ends.fits {lexeme : Lexeme} {after : List Char} (ends : lexeme.Ends after) (before : List Char) :
    Token.Fits (before ++ lexeme.written ++ after)
      ⟨lexeme, byteLength before, byteLength before + byteLength lexeme.written⟩ := by
  have positive := byteLength_pos ends.proper.written_ne_nil
  have stop := byteLength_append before lexeme.written
  refine ⟨by dsimp only; omega, ?_, ⟨before, lexeme.written ++ after, by simp, rfl⟩, ⟨_, after, rfl, stop.symm⟩,
    slice_append before lexeme.written after, ?_⟩
  · rw [byteLength_append, stop]
    exact Nat.le_add_right _ _
  · rw [← stop, dropBytes_byteLength]
    exact ends

/-- A character at or after a boundary is the first one there or comes after that one. -/
private theorem first_or_later {before rest front after : List Char} {c d : Char}
    (same : before ++ d :: rest = front ++ c :: after) (behind : byteLength before ≤ byteLength front) :
    byteLength front = byteLength before ∧ c = d ∨ byteLength before + d.utf8Size ≤ byteLength front := by
  rcases List.append_eq_append_iff.mp same with ⟨more, rfl, later⟩ | ⟨more, rfl, later⟩
  · cases more with
    | nil => exact .inl ⟨by simp, (List.cons.inj later).1.symm⟩
    | cons e es =>
      obtain ⟨rfl, -⟩ := List.cons.inj later
      rw [byteLength_append, byteLength]
      omega
  · cases more with
    | nil => exact .inl ⟨by simp, (List.cons.inj later).1⟩
    | cons e es =>
      have positive := byteLength_pos (List.cons_ne_nil e es)
      rw [byteLength_append] at behind
      omega

theorem tilesFrom_tokensFrom (before cs : List Char) :
    TilesFrom (byteLength before) (before ++ cs) (tokensFrom (byteLength before) cs) := by
  generalize start : byteLength before = offset
  induction offset, cs using tokensFrom.induct generalizing before with
  | case1 offset =>
    rw [tokensFrom]
    refine ⟨by simp, by simp, .nil, ?_⟩
    intro front c after same behind _
    have positive := byteLength_pos (List.cons_ne_nil c after)
    rw [List.append_nil] at same
    rw [same, byteLength_append] at start
    omega
  | case2 offset c cs blank ih =>
    have tiles := ih (before ++ [c]) (by simp [byteLength_append, byteLength, start])
    rw [List.append_assoc, List.singleton_append] at tiles
    rw [tokensFrom_blank blank]
    refine ⟨tiles.fits, fun t member => Nat.le_of_add_right_le (tiles.behind t member), tiles.apart, ?_⟩
    intro front d after same behind outside
    rcases first_or_later same (start ▸ behind) with ⟨-, rfl⟩ | later
    · exact blank
    · exact tiles.blank front d after same (start ▸ later) outside
  | case3 offset c cs solid lexeme more begins stop ih =>
    obtain ⟨written, ends⟩ := Lexeme.begin_ends (by simpa using solid) cs
    rw [tokensFrom_cons (by simpa using solid), begins]
    rw [begins] at written ends
    have split : c :: cs = lexeme.written ++ cs.drop more := by
      rw [← written, List.cons_append, List.take_append_drop]
    have stops : stop = byteLength before + byteLength lexeme.written := by simp only [stop, written, start]
    have tiles := ih (before ++ lexeme.written) (by rw [byteLength_append, stops])
    have fits := ends.fits before
    rw [List.append_assoc, ← split] at tiles fits
    rw [start] at fits stops
    simp only [written]
    rw [← stops] at fits ⊢
    refine ⟨?_, ?_, ?_, ?_⟩
    · exact List.forall_mem_cons.mpr ⟨fits, tiles.fits⟩
    · refine List.forall_mem_cons.mpr ⟨Nat.le_refl _, fun t member => ?_⟩
      have later := tiles.behind t member
      omega
    · exact List.pairwise_cons.mpr ⟨tiles.behind, tiles.apart⟩
    · intro front d after same behind outside
      obtain ⟨here, later⟩ := List.forall_mem_cons.mp outside
      exact tiles.blank front d after same (by simp only at here; omega) later

/-- The tokens of a source tile it. -/
theorem tiles_tokens (source : String) : Tiles source.toList (tokens source.toList) :=
  tilesFrom_tokensFrom [] source.toList

example : (tokens "x1.5 'é'".toList).map (fun t => (t.lexeme, t.start, t.stop)) =
    [(.word "x1", 0, 2), (.mark '.', 2, 3), (.number "5", 3, 4), (.quoted "é" '\'', 5, 9)] := by
  decide +kernel

/-- A token of a source lies between two parts of it. -/
theorem Token.Fits.exists_split {source : List Char} {t : Token} (fits : t.Fits source) :
    ∃ before after, source = before ++ t.lexeme.written ++ after ∧ t.start = byteLength before ∧
      t.stop = byteLength (before ++ t.lexeme.written) := by
  obtain ⟨before, rest, split, start⟩ := fits.starts
  obtain ⟨front, after, split', stop⟩ := fits.stops
  have forward := fits.nonempty
  have shape : ∃ part, front = before ++ part := by
    rcases List.append_eq_append_iff.mp (split.symm.trans split') with ⟨part, same, -⟩ | ⟨part, same, -⟩
    · exact ⟨part, same⟩
    · rw [start, stop, same, byteLength_append] at forward
      omega
  obtain ⟨part, rfl⟩ := shape
  have written := fits.written
  rw [split', start, stop, byteLength_append, slice_append] at written
  exact ⟨before, after, written ▸ split', start, written ▸ stop⟩

theorem tokensFrom_of_blank {cs : List Char} (blank : cs.all Text.isBlank = true) (offset : Nat) :
    tokensFrom offset cs = [] := by
  have read := tokensFrom_blanks (List.all_eq_true.mp blank) offset []
  rw [List.append_nil] at read
  rw [read, tokensFrom]

theorem unpadded_quoted {quote : Char} (isQuoted : isQuote quote = true) (value : List Char) :
    Text.Unpadded (quote :: (value ++ [quote])) := by
  have solid := isBlank_of_isQuote isQuoted
  refine ⟨by simp [solid], ?_⟩
  rw [← List.cons_append, List.getLast?_concat]
  simp [solid]

/-- A text is a single quoted token when it is a quoted text that has no such quote inside, up to blanks around it. -/
theorem tokens_eq_quoted_iff {text : List Char} {value : String} :
    (∃ t quote, tokens text = [t] ∧ t.lexeme = .quoted value quote) ↔
      ∃ quote, isQuote quote = true ∧ quote ∉ value.toList ∧
        Text.trimmed text = quote :: (value.toList ++ [quote]) := by
  constructor
  · rintro ⟨t, quote, single, lexeme⟩
    have tiles := tilesFrom_tokensFrom [] text
    change TilesFrom 0 text (tokens text) at tiles
    rw [single] at tiles
    have fits := tiles.fits t (by simp)
    obtain ⟨before, after, split, start, stop⟩ := fits.exists_split
    obtain ⟨isQuoted, unquoted⟩ : isQuote quote = true ∧ quote ∉ value.toList := by
      have proper := fits.ends.proper
      rwa [lexeme] at proper
    -- Whatever stands before or after the token lies in none, and so it is blank.
    have frontBlank : before.all Text.isBlank = true := by
      refine List.all_eq_true.mpr fun c member => ?_
      obtain ⟨front, back, rfl⟩ := List.append_of_mem member
      refine tiles.blank front c (back ++ t.lexeme.written ++ after) (by simp [split]) (Nat.zero_le _) ?_
      have ahead : byteLength front < t.start := by
        have positive := byteLength_pos (List.cons_ne_nil c back)
        rw [start, byteLength_append]
        omega
      exact List.forall_mem_singleton.mpr (.inl ahead)
    have backBlank : after.all Text.isBlank = true := by
      refine List.all_eq_true.mpr fun c member => ?_
      obtain ⟨front, back, rfl⟩ := List.append_of_mem member
      refine tiles.blank (before ++ t.lexeme.written ++ front) c back (by simp [split]) (Nat.zero_le _) ?_
      have beyond : t.stop ≤ byteLength (before ++ t.lexeme.written ++ front) := by
        rw [byteLength_append _ front, stop]
        exact Nat.le_add_right _ _
      exact List.forall_mem_singleton.mpr (.inr beyond)
    refine ⟨quote, isQuoted, unquoted, ?_⟩
    rw [split, lexeme]
    exact Text.trimmed_padded frontBlank backBlank (unpadded_quoted isQuoted value.toList)
  · rintro ⟨quote, isQuoted, unquoted, trims⟩
    obtain ⟨front, back, frontBlank, backBlank, split⟩ := Text.exists_padding text
    have whole : text = front ++ (quote :: (value.toList ++ quote :: back)) := by
      rw [split, trims]
      simp
    have single := tokensFrom_quoted isQuoted unquoted (0 + byteLength front) back
    rw [tokensFrom_of_blank backBlank, String.ofList_toList, ← tokensFrom_blanks (List.all_eq_true.mp frontBlank),
      ← whole] at single
    exact ⟨_, quote, single, rfl⟩

theorem unquote?_eq_some_iff {quote : Char} {cs value : List Char} :
    unquote? quote cs = some value ↔ cs = quote :: (value ++ [quote]) := by
  cases cs with
  | nil => simp [unquote?]
  | cons c rest =>
    simp only [unquote?, Option.ite_none_right_eq_some, Option.some.injEq, List.cons.injEq, and_assoc]
    refine and_congr_right fun _ => ⟨?_, ?_⟩
    · rintro ⟨last, rfl⟩
      obtain ⟨inside, rfl⟩ := List.getLast?_eq_some_iff.mp last
      rw [List.dropLast_concat]
    · rintro rfl
      simp

/-- A text is printed without its two ends when these are equal quotes. -/
theorem Expr.ofChars_eq_text_iff {text : List Char} {value : String} :
    Expr.ofChars text = .text value ↔
      ∃ quote, isQuote quote = true ∧ Text.trimmed text = quote :: (value.toList ++ [quote]) := by
  unfold Expr.ofChars
  dsimp only
  generalize Text.trimmed text = cs
  constructor
  · intro read
    split at read
    · rename_i found unquoted
      obtain rfl : String.ofList found = value := Expr.text.inj read
      rw [String.toList_ofList]
      rcases Option.or_eq_some_iff.mp unquoted with double | ⟨-, single⟩
      · exact ⟨'"', rfl, unquote?_eq_some_iff.mp double⟩
      · exact ⟨'\'', rfl, unquote?_eq_some_iff.mp single⟩
    · split at read <;> cases read
  · rintro ⟨quote, isQuoted, rfl⟩
    have unquoted := unquote?_eq_some_iff.mpr (Eq.refl (quote :: (value.toList ++ [quote])))
    have either : quote = '"' ∨ quote = '\'' := by simpa [isQuote] using isQuoted
    rcases either with rfl | rfl
    · simp [unquoted]
    · have other : unquote? '"' ('\'' :: (value.toList ++ ['\''])) = none := by simp [unquote?]
      simp [unquoted, other]

/-- A text is printed without its two ends exactly when these are equal quotes, and any other text is printed as the
    number that it stands for or as it is. A single quoted token is the case where the quote does not occur between
    the two ends as well. -/
theorem Expr.ofChars_text_iff_tokens (text : List Char) (value : String) :
    (Expr.ofChars text = .text value ↔
        ∃ quote, isQuote quote = true ∧ Text.trimmed text = quote :: (value.toList ++ [quote])) ∧
      ((∃ t quote, tokens text = [t] ∧ t.lexeme = .quoted value quote) ↔
        Expr.ofChars text = .text value ∧ ∀ quote ∈ (Text.trimmed text).head?, quote ∉ value.toList) ∧
      ((∃ inside, Expr.ofChars text = .text inside) ∨
        (∃ x, Number.ofChars? (Text.trimmed text) = some x ∧ Expr.ofChars text = .number x) ∨
        Number.ofChars? (Text.trimmed text) = none ∧
          Expr.ofChars text = .verbatim (String.ofList (Text.trimmed text))) := by
  refine ⟨ofChars_eq_text_iff, ?_, ?_⟩
  · rw [tokens_eq_quoted_iff, ofChars_eq_text_iff]
    constructor
    · rintro ⟨quote, isQuoted, unquoted, trims⟩
      refine ⟨⟨quote, isQuoted, trims⟩, ?_⟩
      rw [trims]
      rintro _ ⟨⟩
      exact unquoted
    · rintro ⟨⟨quote, isQuoted, trims⟩, unquoted⟩
      rw [trims] at unquoted
      exact ⟨quote, isQuoted, unquoted quote rfl, trims⟩
  · unfold Expr.ofChars
    dsimp only
    split
    · exact .inl ⟨_, rfl⟩
    · split
      · rename_i x read
        exact .inr (.inl ⟨x, read, rfl⟩)
      · rename_i unread
        exact .inr (.inr ⟨unread, rfl⟩)

/-- Two quoted texts with a plus between them are several tokens, and yet they are printed as one quoted text. -/
theorem Expr.ofChars_text_iff_tokens_pieces :
    Expr.ofChars "\"a\" + \"b\"".toList = .text "a\" + \"b" ∧
      (tokens "\"a\" + \"b\"".toList).map (·.lexeme) = [.quoted "a" '"', .mark '+', .quoted "b" '"'] ∧
      ¬ (Expr.ofChars "\"a\" + \"b\"".toList = .text "a\" + \"b" ↔
        ∃ t quote, tokens "\"a\" + \"b\"".toList = [t] ∧ t.lexeme = .quoted "a\" + \"b" quote) := by
  have printed : Expr.ofChars "\"a\" + \"b\"".toList = .text "a\" + \"b" := by decide +kernel
  have lexemes : (tokens "\"a\" + \"b\"".toList).map (·.lexeme) =
      [.quoted "a" '"', .mark '+', .quoted "b" '"'] := by decide +kernel
  refine ⟨printed, lexemes, ?_⟩
  intro agree
  obtain ⟨t, quote, single, -⟩ := agree.mp printed
  rw [single] at lexemes
  simp at lexemes

end DesktopShell.Script
