import DesktopShell.Proofs.Number.Decimals
import DesktopShell.Proofs.Text

/-!
# Numerals in scripts

A numeral is nothing at all, digits behind the name of a base, or a decimal (`Numeral`). A
script takes a numeral for the float nearest to what it says, unless that is out of range or
needs more than 64 bits in a base that is named, and any other text for no number
(`ofText?_numeral`).
-/
namespace DesktopShell.Number
open Binary64

/-- The letter that names a base behind a zero. -/
inductive BaseLetter : Char → ℕ → Prop where
  | hexadecimal {c : Char} (letter : c = 'x' ∨ c = 'X') : BaseLetter c 16
  | octal {c : Char} (letter : c = 'o' ∨ c = 'O') : BaseLetter c 8
  | binary {c : Char} (letter : c = 'b' ∨ c = 'B') : BaseLetter c 2

/-- Digits behind the name of their base, and the number that they stand for. -/
inductive Based : List Char → ℕ → Prop where
  | digits {c : Char} {base n : ℕ} {ds : List Char} (letter : BaseLetter c base) (row : Row base ds n) :
      Based ('0' :: c :: ds) n

/-- A text without blanks around it that says a number, and the number that it says. -/
inductive Numeral : List Char → ℚ → Prop where
  | blank : Numeral [] 0
  | based {text : List Char} {n : ℕ} (based : Based text n) : Numeral text n
  | decimal {text : List Char} {v : ℚ} (decimal : IsDecimal text v) : Numeral text v

theorem baseOf?_eq_some_iff {c : Char} {base : ℕ} : baseOf? c = some base ↔ BaseLetter c base := by
  constructor
  · intro named
    unfold baseOf? at named
    split at named
    · cases named
      exact .hexadecimal ‹_›
    · split at named
      · cases named
        exact .octal ‹_›
      · split at named
        · cases named
          exact .binary ‹_›
        · cases named
  · intro letter
    cases letter with
    | hexadecimal letter => rcases letter with rfl | rfl <;> rfl
    | octal letter => rcases letter with rfl | rfl <;> rfl
    | binary letter => rcases letter with rfl | rfl <;> rfl

theorem splitBase?_eq_some_iff {text ds : List Char} {base : ℕ} :
    splitBase? text = some (base, ds) ↔ ∃ c, text = '0' :: c :: ds ∧ BaseLetter c base := by
  unfold splitBase?
  split
  · rename_i c digits
    simp only [Option.map_eq_some_iff, Prod.mk.injEq, baseOf?_eq_some_iff, List.cons.injEq, true_and]
    constructor
    · rintro ⟨_, letter, rfl, rfl⟩
      exact ⟨c, ⟨rfl, rfl⟩, letter⟩
    · rintro ⟨_, ⟨rfl, rfl⟩, letter⟩
      exact ⟨base, letter, rfl, rfl⟩
  · rename_i other
    simp only [reduceCtorEq, false_iff]
    rintro ⟨c, rfl, -⟩
    exact other c ds rfl

theorem word?_eq_some_iff {base n : ℕ} {ds : List Char} : word? base ds = some n ↔ Row base ds n ∧ n < 2 ^ 64 := by
  rw [← ofDigits?_eq_some_iff, word?]
  cases ofDigits? base ds with
  | none => simp
  | some m =>
    simp only [Option.ite_none_right_eq_some, Option.some.injEq]
    constructor
    · rintro ⟨small, rfl⟩
      exact ⟨rfl, small⟩
    · rintro ⟨rfl, small⟩
      exact ⟨small, rfl⟩

/-- Where a base is named there is no decimal. -/
theorem not_isDecimal_of_base {text : List Char} {c : Char} {base : ℕ} {v : ℚ} (letter : BaseLetter c base) :
    ¬ IsDecimal ('0' :: c :: text) v := by
  intro decimal
  obtain ⟨l, read, -⟩ := Literal.read?_iff.mpr decimal
  obtain ⟨noDigit, noPoint, noExponent⟩ : isDigit c = false ∧ c ≠ '.' ∧ ¬ (c = 'e' ∨ c = 'E') := by
    cases letter with
    | hexadecimal letter => rcases letter with rfl | rfl <;> decide
    | octal letter => rcases letter with rfl | rfl <;> decide
    | binary letter => rcases letter with rfl | rfl <;> decide
  have zero : isDigit '0' = true := by decide
  have parts : Parts ['0'] [] ['0'] := ⟨by simp [zero], rfl, .inl (by simp), .inl ⟨rfl, rfl⟩⟩
  have other (d : Char) (ds : List Char) (same : c :: text = d :: ds) : isDigit d = false ∧ d ≠ '.' := by
    obtain ⟨rfl, -⟩ := List.cons.inj same
    exact ⟨noDigit, noPoint⟩
  change readMagnitude? false (['0'] ++ c :: text) = some l at read
  rw [readMagnitude?_append parts other, readExponent?, if_neg noExponent] at read
  cases read

section
variable {text ds : List Char} {c : Char} {base n : ℕ} {v : ℚ}

theorem based_iff (letter : BaseLetter c base) : Based ('0' :: c :: ds) n ↔ Row base ds n := by
  constructor
  · rintro ⟨letter', row⟩
    have same := (baseOf?_eq_some_iff.mpr letter).symm.trans (baseOf?_eq_some_iff.mpr letter')
    exact Option.some.inj same ▸ row
  · exact .digits letter

theorem numeral_nil_iff : Numeral [] v ↔ v = 0 := by
  constructor
  · intro numeral
    cases numeral with
    | blank => rfl
    | based based => cases based
    | decimal decimal =>
      obtain ⟨l, read, -⟩ := Literal.read?_iff.mpr decimal
      cases read
  · rintro rfl
    exact .blank

theorem numeral_based_iff (letter : BaseLetter c base) :
    Numeral ('0' :: c :: ds) v ↔ ∃ n : ℕ, Row base ds n ∧ v = n := by
  constructor
  · intro numeral
    cases numeral with
    | based based => exact ⟨_, (based_iff letter).mp based, rfl⟩
    | decimal decimal => exact absurd decimal (not_isDecimal_of_base letter)
  · rintro ⟨n, row, rfl⟩
    exact .based (.digits letter row)

theorem numeral_decimal_iff (nonempty : text ≠ []) (other : ∀ n, ¬ Based text n) :
    Numeral text v ↔ IsDecimal text v := by
  constructor
  · intro numeral
    cases numeral with
    | blank => exact absurd rfl nonempty
    | based based => exact absurd based (other _)
    | decimal decimal => exact decimal
  · exact .decimal

end

/-- A text is blank, names a base or is taken for a decimal. -/
theorem ofText?_cases (s : String) :
    (Text.trim s).toList = [] ∧ ofText? s = some 0 ∨
      (∃ c base ds, (Text.trim s).toList = '0' :: c :: ds ∧ BaseLetter c base ∧
        ofText? s = (word? base ds).map fun n => nearest n 0) ∨
      (Text.trim s).toList ≠ [] ∧ (∀ n, ¬ Based (Text.trim s).toList n) ∧
        ofText? s = (Literal.read? (Text.trim s).toList).bind fun l =>
          if l.value.isFinite then some l.value else none := by
  rw [ofText?, ofChars?, Text.trim, String.toList_ofList]
  generalize Text.trimmed s.toList = text
  cases text with
  | nil => exact .inl ⟨rfl, rfl⟩
  | cons d rest =>
    refine .inr ?_
    dsimp only
    cases split : splitBase? (d :: rest) with
    | some parts =>
      obtain ⟨base, ds⟩ := parts
      obtain ⟨c, same, letter⟩ := splitBase?_eq_some_iff.mp split
      exact .inl ⟨c, base, ds, same, letter, rfl⟩
    | none =>
      refine .inr ⟨List.cons_ne_nil d rest, ?_, ?_⟩
      · rintro n ⟨letter, row⟩
        cases split.symm.trans (splitBase?_eq_some_iff.mpr ⟨_, rfl, letter⟩)
      · cases Literal.read? (d :: rest) <;> rfl

/-- A number of 64 bits is in range. -/
theorem nearest_word {n : ℕ} (word : n < 2 ^ 64) : InRange n ∧ Nearest n (nearest n 0) := by
  have rounds := rounds_nearest n 0
  rw [zpow_zero, mul_one] at rounds
  have inside := rounds.isFinite_iff.mp (bounded_ofScientific word).isFinite
  exact ⟨inside, rounds.nearest inside⟩

/-- A script takes a text for a number exactly when it says one that is in range, and that has 64 bits at most where a
    base is named; and then it takes the float nearest to what the text says. -/
theorem ofText?_numeral (s : String) :
    ((∃ x, ofText? s = some x) ↔ (∃ v, Numeral (Text.trim s).toList v ∧ InRange v) ∧
      ∀ n, Based (Text.trim s).toList n → n < 2 ^ 64) ∧
    ∀ x v, ofText? s = some x → Numeral (Text.trim s).toList v → Nearest v x := by
  rcases ofText?_cases s with ⟨blank, taken⟩ | ⟨c, base, ds, named, letter, taken⟩ | ⟨nonempty, other, taken⟩
  · obtain ⟨inside, zero⟩ := nearest_word (by decide : 0 < 2 ^ 64)
    rw [Nat.cast_zero] at inside zero
    have same : (0 : Float) = nearest 0 0 := rfl
    simp only [blank, taken, numeral_nil_iff]
    refine ⟨iff_of_true ⟨0, rfl⟩ ⟨⟨0, rfl, inside⟩, ?_⟩, ?_⟩
    · intro n based
      cases based
    · rintro x v taken rfl
      cases taken
      exact same ▸ zero
  · simp only [named, taken, numeral_based_iff letter, based_iff letter, Option.map_eq_some_iff, word?_eq_some_iff]
    constructor
    · constructor
      · rintro ⟨_, n, ⟨row, word⟩, -⟩
        exact ⟨⟨n, ⟨n, row, rfl⟩, (nearest_word word).1⟩, fun m row' => row.unique row' ▸ word⟩
      · rintro ⟨⟨_, ⟨n, row, rfl⟩, -⟩, words⟩
        exact ⟨_, n, ⟨row, words n row⟩, rfl⟩
    · rintro x v ⟨n, ⟨row, word⟩, rfl⟩ ⟨m, row', rfl⟩
      exact row.unique row' ▸ (nearest_word word).2
  · simp only [taken, numeral_decimal_iff nonempty other, ← Literal.read?_iff, Option.bind_eq_some_iff,
      Option.ite_none_right_eq_some, Option.some.injEq]
    constructor
    · constructor
      · rintro ⟨_, l, read, finite, -⟩
        exact ⟨⟨_, ⟨l, read, rfl⟩, l.rounds_value.isFinite_iff.mp finite⟩, fun n based => absurd based (other n)⟩
      · rintro ⟨⟨_, ⟨l, read, rfl⟩, inside⟩, -⟩
        exact ⟨_, l, read, l.rounds_value.isFinite_iff.mpr inside, rfl⟩
    · rintro x v ⟨l, read, finite, rfl⟩ ⟨l', read', rfl⟩
      cases read.symm.trans read'
      exact l.rounds_value.nearest (l.rounds_value.isFinite_iff.mp finite)

/-- The largest number of 64 bits is no float and is taken for the next one. -/
theorem ofText?_numeral_word :
    Numeral (Text.trim " 0xFFFFFFFFFFFFFFFF ").toList (18446744073709551615 : ℕ) ∧
      ofText? " 0xFFFFFFFFFFFFFFFF " = some (Float.ofBits 0x43F0000000000000) ∧
      Nearest (18446744073709551615 : ℕ) (Float.ofBits 0x43F0000000000000) := by
  have trimmed : (Text.trim " 0xFFFFFFFFFFFFFFFF ").toList = '0' :: 'x' :: List.replicate 16 'F' := by decide +kernel
  have row : Row 16 (List.replicate 16 'F') 18446744073709551615 := ofDigits?_eq_some_iff.mp (by decide +kernel)
  have numeral : Numeral (Text.trim " 0xFFFFFFFFFFFFFFFF ").toList (18446744073709551615 : ℕ) := by
    rw [trimmed]
    exact .based (.digits (.hexadecimal (.inl rfl)) row)
  have taken : ofText? " 0xFFFFFFFFFFFFFFFF " = some (Float.ofBits 0x43F0000000000000) := by decide +kernel
  exact ⟨numeral, taken, (ofText?_numeral _).2 _ _ taken numeral⟩

/-- A number of 65 bits is far from being out of range, and yet a text that says it in a base is taken for none. -/
theorem ofText?_numeral_long :
    (∃ v, Numeral (Text.trim "0x10000000000000000").toList v ∧ InRange v) ∧
      ¬ ∃ x, ofText? "0x10000000000000000" = some x := by
  have trimmed : (Text.trim "0x10000000000000000").toList = '0' :: 'x' :: '1' :: List.replicate 16 '0' := by
    decide +kernel
  have row : Row 16 ('1' :: List.replicate 16 '0') (2 ^ 64) := ofDigits?_eq_some_iff.mp (by decide +kernel)
  have refused : ofText? "0x10000000000000000" = none := by decide +kernel
  have finite : (nearest (2 ^ 64) 0).isFinite = true := by decide +kernel
  have inside := (rounds_nearest (2 ^ 64) 0).isFinite_iff.mp finite
  rw [zpow_zero, mul_one] at inside
  rw [trimmed, refused]
  exact ⟨⟨_, .based (.digits (.hexadecimal (.inl rfl)) row), inside⟩, by simp⟩

end DesktopShell.Number
