/-!
# Texts, numerals and counters

The characters with the Unicode property White_Space, and what is cut at them:
the two ends of a text (`trim`) and the first word of a line (`firstWord?`).
Natural numbers are written with digits of a base: `ofDigits?` reads them, and the
decimal numeral of a number (`decimal`) reads back (`ofDigits?_decimal`). From them
come the names that counters give out, numbers of 64 bits one after another; a counter
stays at its largest value once it has reached it.
-/
namespace DesktopShell.Text

/-- The ranges of code points with the property White_Space, in ascending order. -/
def blankRanges : List (Nat × Nat) :=
  [(0x09, 0x0D), (0x20, 0x20), (0x85, 0x85), (0xA0, 0xA0), (0x1680, 0x1680), (0x2000, 0x200A),
   (0x2028, 0x2029), (0x202F, 0x202F), (0x205F, 0x205F), (0x3000, 0x3000)]

/-- A character is blank when its code point lies in one of the ranges. -/
def isBlank (c : Char) : Bool :=
  blankRanges.any fun range => decide (range.1 ≤ c.toNat) && decide (c.toNat ≤ range.2)

def trimStart (cs : List Char) : List Char := cs.dropWhile isBlank

def trimEnd (cs : List Char) : List Char := (cs.reverse.dropWhile isBlank).reverse

def trimmed (cs : List Char) : List Char := trimEnd (trimStart cs)

/-- A text without the blanks at its two ends. -/
def trim (s : String) : String := String.ofList (trimmed s.toList)

/-- The first word of a text, a word being a longest stretch without blanks. -/
def firstWord? (cs : List Char) : Option (List Char) :=
  match (trimStart cs).takeWhile fun c => !isBlank c with
  | [] => none
  | word => some word

/-- The stretches of a list between separators, of which a list with `n` separators has `n + 1`. -/
def parts {α : Type} (separates : α → Bool) : List α → List (List α)
  | [] => [[]]
  | x :: xs =>
    if separates x then [] :: parts separates xs
    else
      match parts separates xs with
      | [] => [[x]]
      | part :: rest => (x :: part) :: rest

/-- Lines joined by line feeds. -/
def unlines (lines : List String) : String := String.intercalate "\n" lines

end DesktopShell.Text

namespace DesktopShell.Number

/-- The value of a digit; letters of either case stand for ten and more. -/
def digitValue? (c : Char) : Option Nat :=
  if '0' ≤ c ∧ c ≤ '9' then some (c.toNat - '0'.toNat)
  else if 'a' ≤ c ∧ c ≤ 'z' then some (c.toNat - 'a'.toNat + 10)
  else if 'A' ≤ c ∧ c ≤ 'Z' then some (c.toNat - 'A'.toNat + 10)
  else none

def isDigit (c : Char) : Bool := decide ('0' ≤ c) && decide (c ≤ '9')

/-- One more digit on the right of a number, when it is a digit of the base. -/
def appendDigit? (base value : Nat) (c : Char) : Option Nat :=
  match digitValue? c with
  | some d => if d < base then some (value * base + d) else none
  | none => none

/-- The number that a non-empty row of digits of the base stands for. -/
def ofDigits? (base : Nat) (cs : List Char) : Option Nat :=
  if cs.isEmpty then none else cs.foldlM (appendDigit? base) 0

def digitChar (d : Nat) : Char := Char.ofNat ('0'.toNat + d)

/-- The decimal digits of a number, the most significant first. -/
def decimal (n : Nat) : List Char :=
  if n < 10 then [digitChar n] else decimal (n / 10) ++ [digitChar (n % 10)]
termination_by n

def decimalText (n : Nat) : String := String.ofList (decimal n)

theorem digitValue?_digitChar {d : Nat} (small : d < 10) : digitValue? (digitChar d) = some d := by
  revert d
  decide

theorem appendDigit?_digitChar (value : Nat) {d : Nat} (small : d < 10) :
    appendDigit? 10 value (digitChar d) = some (value * 10 + d) := by
  simp [appendDigit?, digitValue?_digitChar small, small]

theorem decimal_ne_nil (n : Nat) : decimal n ≠ [] := by
  unfold decimal
  split <;> simp

private theorem foldlM_decimal (n : Nat) : (decimal n).foldlM (appendDigit? 10) 0 = some n := by
  induction n using decimal.induct with
  | case1 n small =>
    unfold decimal
    simp [small, List.foldlM, appendDigit?_digitChar 0 small]
  | case2 n large ih =>
    unfold decimal
    rw [if_neg large, List.foldlM_append, ih]
    have last : n % 10 < 10 := Nat.mod_lt n (by decide)
    simp [List.foldlM, appendDigit?_digitChar (n / 10) last]
    omega

theorem ofDigits?_decimal (n : Nat) : ofDigits? 10 (decimal n) = some n := by
  unfold ofDigits?
  rw [if_neg (by simp [decimal_ne_nil]), foldlM_decimal]

end DesktopShell.Number

namespace DesktopShell.Counter

/-- The largest value of a counter. -/
def top : UInt64 := 18446744073709551615

/-- The value after `n`; the largest value is followed by itself. -/
def next (n : UInt64) : UInt64 := if n = top then n else n + 1

/-- The name of the n-th window, application, icon or file. -/
def label (stem : String) (n : UInt64) : String := stem ++ "-" ++ Number.decimalText n.toNat

theorem next_toNat {n : UInt64} (below : n ≠ top) : (next n).toNat = n.toNat + 1 := by
  have bound : n.toNat < 18446744073709551615 := by
    have small := n.toNat_lt
    have apart : n.toNat ≠ 18446744073709551615 := fun same => below (UInt64.toNat_inj.1 same)
    omega
  unfold next
  rw [if_neg below, UInt64.toNat_add]
  change (n.toNat + 1) % 18446744073709551616 = n.toNat + 1
  omega

end DesktopShell.Counter
