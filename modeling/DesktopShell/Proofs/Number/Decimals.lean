import DesktopShell.Proofs.Number.Scientific

/-!
# Decimals

A number is written with digits of a base (`Row`), and a decimal with a sign, a point and an
exponent around its digits (`IsDecimal`). The readers read what is written so, with the
number that it stands for, and nothing else (`ofDigits?_eq_some_iff`, `Literal.read?_iff`).
-/
namespace DesktopShell.Number

/-- A row of digits of a base, and the number that it stands for. -/
inductive Row (base : ℕ) : List Char → ℕ → Prop where
  | digit {c : Char} {d : ℕ} (value : digitValue? c = some d) (small : d < base) : Row base [c] d
  | append {cs : List Char} {n : ℕ} {c : Char} {d : ℕ} (row : Row base cs n) (value : digitValue? c = some d)
      (small : d < base) : Row base (cs ++ [c]) (n * base + d)

section
variable {base : ℕ}

theorem appendDigit?_eq_some_iff {value n : ℕ} {c : Char} :
    appendDigit? base value c = some n ↔ ∃ d, digitValue? c = some d ∧ d < base ∧ n = value * base + d := by
  unfold appendDigit?
  cases digitValue? c with
  | none => simp
  | some d => simp [eq_comm]

theorem Row.ne_nil {cs : List Char} {n : ℕ} (row : Row base cs n) : cs ≠ [] := by
  cases row <;> simp

private theorem foldlM_append_digit (cs : List Char) (c : Char) :
    (cs ++ [c]).foldlM (appendDigit? base) 0 =
      (cs.foldlM (appendDigit? base) 0).bind fun n => appendDigit? base n c := by
  simp [List.foldlM_append]

theorem ofDigits?_eq_some_iff {cs : List Char} {n : ℕ} : ofDigits? base cs = some n ↔ Row base cs n := by
  have nonempty {cs : List Char} (filled : cs ≠ []) : ofDigits? base cs = cs.foldlM (appendDigit? base) 0 := by
    rw [ofDigits?, if_neg (by simpa using filled)]
  constructor
  · intro read
    induction cs using List.reverseRecOn generalizing n with
    | nil => cases read
    | append_singleton cs c ih =>
      rw [nonempty (by simp), foldlM_append_digit] at read
      obtain ⟨m, front, last⟩ := Option.bind_eq_some_iff.mp read
      obtain ⟨d, value, small, rfl⟩ := appendDigit?_eq_some_iff.mp last
      by_cases first : cs = []
      · subst first
        cases front
        rw [Nat.zero_mul, Nat.zero_add]
        exact .digit value small
      · exact .append (ih (by rw [nonempty first, front])) value small
  · intro row
    induction row with
    | digit value small =>
      rw [nonempty (by simp)]
      simp [appendDigit?, value, small]
    | append row value small ih =>
      rw [nonempty row.ne_nil] at ih
      rw [nonempty (by simp), foldlM_append_digit, ih]
      exact appendDigit?_eq_some_iff.mpr ⟨_, value, small, rfl⟩

theorem Row.unique {cs : List Char} {m n : ℕ} (row : Row base cs m) (row' : Row base cs n) : m = n := by
  have same := (ofDigits?_eq_some_iff.mpr row).symm.trans (ofDigits?_eq_some_iff.mpr row')
  exact Option.some.inj same

end

theorem isDigit_iff {c : Char} : isDigit c = true ↔ ∃ d, digitValue? c = some d ∧ d < 10 := by
  rw [isDigit, Bool.and_eq_true, decide_eq_true_eq, decide_eq_true_eq]
  unfold digitValue?
  constructor
  · rintro ⟨low, high⟩
    have high' : c.toNat ≤ '9'.toNat := high
    refine ⟨_, if_pos ⟨low, high⟩, ?_⟩
    change c.toNat - 48 < 10
    have last : '9'.toNat = 57 := rfl
    omega
  · rintro ⟨d, value, small⟩
    split at value
    · assumption
    · split at value
      · cases value
        omega
      · split at value
        · cases value
          omega
        · cases value

/-- Digits append to the number before them. -/
private theorem foldlM_digits {ds : List Char} (digits : ds.all isDigit = true) (n : ℕ) :
    ds.foldlM (appendDigit? 10) n = some (n * 10 ^ ds.length + digitsValue ds) := by
  induction ds generalizing n with
  | nil => simp [digitsValue, ofDigits?]
  | cons c cs ih =>
    simp only [List.all_cons, Bool.and_eq_true] at digits
    obtain ⟨d, value, small⟩ := isDigit_iff.mp digits.1
    have step (m : ℕ) : appendDigit? 10 m c = some (m * 10 + d) := appendDigit?_eq_some_iff.mpr ⟨d, value, small, rfl⟩
    have whole : digitsValue (c :: cs) = d * 10 ^ cs.length + digitsValue cs := by
      have first : (c :: cs).foldlM (appendDigit? 10) 0 = some (d * 10 ^ cs.length + digitsValue cs) := by
        rw [List.foldlM_cons, step, Nat.zero_mul, Nat.zero_add]
        exact ih digits.2 d
      rw [digitsValue, ofDigits?, if_neg (by simp), first, Option.getD_some]
    rw [List.foldlM_cons, step, whole]
    refine (ih digits.2 _).trans (congrArg some ?_)
    rw [List.length_cons]
    ring

theorem digitsValue_append {ds fs : List Char} (whole : ds.all isDigit = true) (fraction : fs.all isDigit = true) :
    digitsValue (ds ++ fs) = digitsValue ds * 10 ^ fs.length + digitsValue fs := by
  have both := foldlM_digits (by rw [List.all_append, whole, fraction]; rfl : (ds ++ fs).all isDigit = true) 0
  rw [List.foldlM_append, foldlM_digits whole 0, Nat.zero_mul, Nat.zero_add] at both
  have after := (foldlM_digits fraction (digitsValue ds)).symm.trans both
  simpa using (Option.some.inj after).symm

/-- Decimal digits are a row of their own value. -/
theorem row_iff {ds : List Char} {n : ℕ} : Row 10 ds n ↔ ds ≠ [] ∧ ds.all isDigit = true ∧ digitsValue ds = n := by
  constructor
  · intro row
    have digits : ds.all isDigit = true := by
      induction row with
      | digit value small => simp [isDigit_iff.mpr ⟨_, value, small⟩]
      | append row value small ih => simp [isDigit_iff.mpr ⟨_, value, small⟩, ih]
    refine ⟨row.ne_nil, digits, ?_⟩
    rw [digitsValue, ofDigits?_eq_some_iff.mpr row, Option.getD_some]
  · rintro ⟨nonempty, digits, rfl⟩
    refine ofDigits?_eq_some_iff.mp ?_
    rw [ofDigits?, if_neg (by simpa using nonempty), foldlM_digits digits, Nat.zero_mul, Nat.zero_add]

/-- A sign or nothing, and whether it is a minus. -/
inductive SignText : List Char → Bool → Prop where
  | absent : SignText [] false
  | plus : SignText ['+'] false
  | minus : SignText ['-'] true

/-- Digits, digits with a point, or a point with digits, and the number that they stand for. -/
inductive Magnitude : List Char → ℚ → Prop where
  | whole {ds : List Char} {n : ℕ} (row : Row 10 ds n) : Magnitude ds n
  | pointed {ds : List Char} {n : ℕ} (row : Row 10 ds n) : Magnitude (ds ++ ['.']) n
  | fraction {fs : List Char} {k : ℕ} (row : Row 10 fs k) : Magnitude ('.' :: fs) (k / 10 ^ fs.length)
  | both {ds fs : List Char} {n k : ℕ} (row : Row 10 ds n) (row' : Row 10 fs k) :
      Magnitude (ds ++ '.' :: fs) (n + k / 10 ^ fs.length)

/-- An exponent or nothing, and the power of ten that it stands for. -/
inductive Power : List Char → ℤ → Prop where
  | absent : Power [] 0
  | present {c : Char} {sign ds : List Char} {negative : Bool} {n : ℕ} (letter : c = 'e' ∨ c = 'E')
      (signed : SignText sign negative) (row : Row 10 ds n) :
      Power (c :: (sign ++ ds)) (if negative then -(n : ℤ) else n)

/-- A decimal and the number that it stands for. -/
def IsDecimal (text : List Char) (v : ℚ) : Prop :=
  ∃ sign negative body m tail e, SignText sign negative ∧ Magnitude body m ∧ Power tail e ∧
    text = sign ++ (body ++ tail) ∧ v = (if negative then -1 else 1) * (m * 10 ^ e)

theorem splitSign_append {sign rest : List Char} {negative : Bool} (signed : SignText sign negative)
    (plain : ∀ c cs, rest = c :: cs → c ≠ '+' ∧ c ≠ '-') : splitSign (sign ++ rest) = (negative, rest) := by
  cases signed with
  | absent =>
    cases rest with
    | nil => rfl
    | cons c cs =>
      obtain ⟨notPlus, notMinus⟩ := plain c cs rfl
      simp [splitSign, notPlus, notMinus]
  | plus => rfl
  | minus => rfl

theorem exists_signText (cs : List Char) :
    ∃ sign, SignText sign (splitSign cs).1 ∧ cs = sign ++ (splitSign cs).2 := by
  unfold splitSign
  split
  · exact ⟨['-'], .minus, rfl⟩
  · exact ⟨['+'], .plus, rfl⟩
  · exact ⟨[], .absent, rfl⟩

private theorem plain_of_digits {ds : List Char} (digits : ds.all isDigit = true) (c : Char) (cs : List Char)
    (same : ds = c :: cs) : c ≠ '+' ∧ c ≠ '-' := by
  rw [same, List.all_cons, Bool.and_eq_true] at digits
  constructor
  · rintro rfl
    exact absurd digits.1 (by decide)
  · rintro rfl
    exact absurd digits.1 (by decide)

theorem readExponent?_eq_some_iff {tail : List Char} {e : ℤ} : readExponent? tail = some e ↔ Power tail e := by
  constructor
  · intro read
    cases tail with
    | nil =>
      cases read
      exact .absent
    | cons c rest =>
      simp only [readExponent?, Option.ite_none_right_eq_some] at read
      obtain ⟨letter, digits, read⟩ := read
      obtain ⟨_, whole, rfl⟩ := Option.map_eq_some_iff.mp read
      obtain ⟨n, value, same⟩ := Option.bind_eq_some_iff.mp whole
      obtain rfl := Option.some.inj same
      obtain ⟨sign, signed, split⟩ := exists_signText rest
      have power := Power.present letter signed (ofDigits?_eq_some_iff.mp value)
      rwa [← split] at power
  · intro power
    cases power with
    | absent => rfl
    | present letter signed row =>
      have digits := (row_iff.mp row).2.1
      have split := splitSign_append signed (plain_of_digits digits)
      simp only [readExponent?, letter, split, digits, ↓reduceIte, ofDigits?_eq_some_iff.mpr row]
      rfl

/-- The digits before and after the point of a magnitude. -/
structure Parts (ds fs body : List Char) : Prop where
  whole : ds.all isDigit = true
  fraction : fs.all isDigit = true
  nonempty : ds ≠ [] ∨ fs ≠ []
  body : body = ds ∧ fs = [] ∨ body = ds ++ '.' :: fs

theorem magnitude_iff {body : List Char} {m : ℚ} :
    Magnitude body m ↔ ∃ ds fs, Parts ds fs body ∧ m = digitsValue (ds ++ fs) / 10 ^ fs.length := by
  constructor
  · intro magnitude
    cases magnitude with
    | whole row =>
      obtain ⟨nonempty, digits, value⟩ := row_iff.mp row
      exact ⟨body, [], ⟨digits, rfl, .inl nonempty, .inl ⟨rfl, rfl⟩⟩, by simp [value]⟩
    | pointed row =>
      obtain ⟨nonempty, digits, value⟩ := row_iff.mp row
      exact ⟨_, [], ⟨digits, rfl, .inl nonempty, .inr rfl⟩, by simp [value]⟩
    | fraction row =>
      obtain ⟨nonempty, digits, value⟩ := row_iff.mp row
      exact ⟨[], _, ⟨rfl, digits, .inr nonempty, .inr rfl⟩, by simp [value]⟩
    | both row row' =>
      obtain ⟨nonempty, digits, value⟩ := row_iff.mp row
      obtain ⟨-, digits', value'⟩ := row_iff.mp row'
      refine ⟨_, _, ⟨digits, digits', .inl nonempty, .inr rfl⟩, ?_⟩
      rw [digitsValue_append digits digits', value, value']
      push_cast
      field_simp
  · rintro ⟨ds, fs, ⟨whole, fraction, nonempty, ⟨rfl, rfl⟩ | rfl⟩, rfl⟩
    · simpa using Magnitude.whole (row_iff.mpr ⟨nonempty.resolve_right (· rfl), whole, rfl⟩)
    · by_cases noWhole : ds = []
      · subst noWhole
        exact .fraction (row_iff.mpr ⟨nonempty.resolve_left (· rfl), fraction, rfl⟩)
      · by_cases noFraction : fs = []
        · subst noFraction
          simpa using Magnitude.pointed (row_iff.mpr ⟨noWhole, whole, rfl⟩)
        · have both := Magnitude.both (row_iff.mpr ⟨noWhole, whole, rfl⟩) (row_iff.mpr ⟨noFraction, fraction, rfl⟩)
          rw [digitsValue_append whole fraction]
          push_cast
          rwa [add_div, mul_div_cancel_right₀ _ (by positivity)]

/-- What follows a magnitude begins with neither a digit nor a point. -/
theorem Power.first {tail : List Char} {e : ℤ} (power : Power tail e) (c : Char) (cs : List Char)
    (same : tail = c :: cs) : isDigit c = false ∧ c ≠ '.' := by
  cases power with
  | absent => cases same
  | present letter signed row =>
    cases same
    rcases letter with rfl | rfl <;> exact ⟨by decide, by decide⟩

/-- The digits that a text begins with end where something else begins. -/
private theorem digits_append {ds rest : List Char} (digits : ds.all isDigit = true)
    (other : ∀ c cs, rest = c :: cs → isDigit c = false) :
    (ds ++ rest).takeWhile isDigit = ds ∧ (ds ++ rest).dropWhile isDigit = rest := by
  have all := List.all_eq_true.mp digits
  rw [List.takeWhile_append_of_pos all, List.dropWhile_append_of_pos all]
  cases rest with
  | nil => simp
  | cons c cs => simp [other c cs rfl]

/-- A text that is a magnitude and what may follow it is cut into their parts. -/
theorem readMagnitude?_append {negative : Bool} {ds fs body tail : List Char} (parts : Parts ds fs body)
    (other : ∀ c cs, tail = c :: cs → isDigit c = false ∧ c ≠ '.') :
    readMagnitude? negative (body ++ tail) =
      (readExponent? tail).map fun e => ⟨negative, digitsValue (ds ++ fs), e - fs.length⟩ := by
  have nonempty : (ds.isEmpty && fs.isEmpty) = false := by
    rw [← Bool.not_eq_true, Bool.and_eq_true, List.isEmpty_iff, List.isEmpty_iff]
    exact not_and_or.mpr parts.nonempty
  have noDigit (c : Char) (cs : List Char) (same : tail = c :: cs) := (other c cs same).1
  rcases parts.body with ⟨rfl, rfl⟩ | rfl
  · obtain ⟨front, rest⟩ := digits_append parts.whole noDigit
    have noPoint : tail.head? ≠ some '.' := by
      intro point
      obtain ⟨cs, same⟩ := List.head?_eq_some_iff.mp point
      exact (other '.' cs same).2 rfl
    simp only [readMagnitude?, front, rest, noPoint, Bool.false_eq_true, ↓reduceIte, List.takeWhile_nil, nonempty]
  · have point (c : Char) (cs : List Char) (same : '.' :: (fs ++ tail) = c :: cs) : isDigit c = false := by
      obtain ⟨rfl, -⟩ := List.cons.inj same
      decide
    obtain ⟨front, rest⟩ := digits_append parts.whole point
    obtain ⟨front', rest'⟩ := digits_append parts.fraction noDigit
    simp only [readMagnitude?, List.append_assoc, List.cons_append, front, rest, List.head?_cons, ↓reduceIte,
      List.drop_one, List.tail_cons, front', rest', nonempty, Bool.false_eq_true]

theorem readMagnitude?_eq_some_iff {negative : Bool} {cs : List Char} {l : Literal} :
    readMagnitude? negative cs = some l ↔ ∃ ds fs body tail e, Parts ds fs body ∧ Power tail e ∧ cs = body ++ tail ∧
      l = ⟨negative, digitsValue (ds ++ fs), e - fs.length⟩ := by
  constructor
  · intro read
    have split := List.takeWhile_append_dropWhile (p := isDigit) (l := cs)
    unfold readMagnitude? at read
    generalize whole : cs.takeWhile isDigit = ds at split read
    generalize cs.dropWhile isDigit = rest at split read
    have digits : ds.all isDigit = true := whole ▸ List.all_takeWhile
    dsimp only at read
    rw [Option.ite_none_left_eq_some, Bool.and_eq_true, List.isEmpty_iff, List.isEmpty_iff, not_and_or] at read
    obtain ⟨nonempty, read⟩ := read
    obtain ⟨e, power, rfl⟩ := Option.map_eq_some_iff.mp read
    rw [readExponent?_eq_some_iff] at power
    by_cases point : rest.head? = some '.'
    · obtain ⟨more, rfl⟩ := List.head?_eq_some_iff.mp point
      simp only [point, ↓reduceIte, List.drop_one, List.tail_cons] at nonempty power ⊢
      refine ⟨ds, _, _, _, e, ⟨digits, List.all_takeWhile, nonempty, .inr rfl⟩, power, ?_, rfl⟩
      rw [List.append_assoc, List.cons_append, List.takeWhile_append_dropWhile, split]
    · simp only [point, ↓reduceIte, List.takeWhile_nil] at nonempty power ⊢
      have whole' : ds ≠ [] := nonempty.resolve_right (· trivial)
      exact ⟨ds, [], ds, rest, e, ⟨digits, rfl, .inl whole', .inl ⟨rfl, rfl⟩⟩, power, split.symm, rfl⟩
  · rintro ⟨ds, fs, body, tail, e, parts, power, rfl, rfl⟩
    rw [readMagnitude?_append parts power.first, readExponent?_eq_some_iff.mpr power, Option.map_some]

/-- A magnitude begins with a digit or a point. -/
private theorem Parts.plain {ds fs body : List Char} (parts : Parts ds fs body) (tail : List Char) (c : Char)
    (cs : List Char) (same : body ++ tail = c :: cs) : c ≠ '+' ∧ c ≠ '-' := by
  cases ds with
  | nil =>
    obtain ⟨rfl, rfl⟩ | rfl := parts.body
    · exact absurd rfl (parts.nonempty.resolve_left (· rfl))
    · cases same
      exact ⟨by decide, by decide⟩
  | cons d ds =>
    obtain rfl : d = c := by
      obtain ⟨rfl, -⟩ | rfl := parts.body <;> exact (List.cons.inj same).1
    exact plain_of_digits parts.whole d ds rfl

/-- The literals that are read are the decimals, with the numbers that they stand for. -/
theorem Literal.read?_iff {cs : List Char} {v : ℚ} :
    (∃ l, Literal.read? cs = some l ∧ l.toRat = v) ↔ IsDecimal cs v := by
  have number (negative : Bool) (n k : ℕ) (e : ℤ) : (Literal.mk negative n (e - k)).toRat =
      (if negative then -1 else 1) * ((n : ℚ) / 10 ^ k * 10 ^ e) := by
    rw [Literal.toRat, zpow_sub₀ (by norm_num), zpow_natCast]
    ring
  constructor
  · rintro ⟨l, read, rfl⟩
    change readMagnitude? (splitSign cs).1 (splitSign cs).2 = some l at read
    obtain ⟨sign, signed, split⟩ := exists_signText cs
    obtain ⟨ds, fs, body, tail, e, parts, power, whole, rfl⟩ := readMagnitude?_eq_some_iff.mp read
    rw [whole] at split
    exact ⟨sign, _, body, _, tail, e, signed, magnitude_iff.mpr ⟨ds, fs, parts, rfl⟩, power, split, number _ _ _ _⟩
  · rintro ⟨sign, negative, body, m, tail, e, signed, magnitude, power, rfl, rfl⟩
    obtain ⟨ds, fs, parts, rfl⟩ := magnitude_iff.mp magnitude
    refine ⟨⟨negative, digitsValue (ds ++ fs), e - fs.length⟩, ?_, number _ _ _ _⟩
    rw [Literal.read?, splitSign_append signed (parts.plain tail)]
    exact readMagnitude?_eq_some_iff.mpr ⟨ds, fs, body, tail, e, parts, power, rfl, rfl⟩

end DesktopShell.Number
