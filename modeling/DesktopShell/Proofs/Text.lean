import DesktopShell.Text
import Mathlib.Data.List.Basic
import Mathlib.Data.List.Nodup
import Mathlib.Data.List.TakeWhile
import Mathlib.Logic.Function.Iterate

/-!
# Counters, trimming, words and parts

The order of 64-bit words against the successor of a counter: it is the least
larger word as long as the counter has not come to its end (`lt_next`, `next_le`).
Names made from different counters differ (`label_inj`), so that a counter makes new
names as long as it has passed the numbers of all that are in use (`Issued.push`).

A text is trimmed when neither of its ends is blank (`trimmed_eq_self_iff`), which
trimming makes it (`unpadded_trimmed`): it takes the blanks off its ends
(`exists_padding`, `trimmed_padded`). The first word of a text stands between blanks
(`firstWord?_eq_some_iff`), and only a blank text has none. The parts of a text have
no separators in them, and a text without separators before others goes to their
first part.
-/
namespace DesktopShell.Counter

instance instLawfulOrderMaxWord : Std.LawfulOrderMax UInt64 := by
  apply Std.LawfulOrderMax.of_max_le_iff
  · intro a b c
    rw [UInt64.max_def]
    split <;> grind
  · intro a b
    rw [UInt64.max_def]
    split <;> simp

theorem ne_top_of_next {n : UInt64} (room : next n < top) : n ≠ top := by
  rintro rfl
  exact absurd room (by decide)

theorem toNat_le_top (n : UInt64) : n.toNat ≤ top.toNat := Nat.le_of_lt_succ n.toNat_lt

theorem ne_top_of_lt {m n : UInt64} (below : m < n) : m ≠ top := by
  rintro rfl
  exact Nat.not_lt_of_le (toNat_le_top n) (UInt64.lt_iff_toNat_lt.mp below)

theorem lt_next_of_ne_top {n : UInt64} (below : n ≠ top) : n < next n := by
  rw [UInt64.lt_iff_toNat_lt, next_toNat below]
  omega

theorem lt_next {n : UInt64} (room : next n < top) : n < next n := lt_next_of_ne_top (ne_top_of_next room)

theorem le_next (n : UInt64) : n ≤ next n := by
  by_cases saturated : n = top
  · simp [next, saturated]
  · rw [UInt64.le_iff_toNat_le, next_toNat saturated]
    omega

theorem next_le {m n : UInt64} (below : m < n) : next m ≤ n := by
  rw [UInt64.le_iff_toNat_le, next_toNat (ne_top_of_lt below)]
  exact UInt64.lt_iff_toNat_lt.mp below

theorem next_le_next {m n : UInt64} (le : m ≤ n) : next m ≤ next n := by
  by_cases same : m = n
  · rw [same]
    exact UInt64.le_refl _
  · exact UInt64.le_trans (next_le (UInt64.lt_of_le_of_ne le same)) (le_next n)

theorem label_inj {stem : String} {m n : UInt64} (same : label stem m = label stem n) : m = n := by
  have digits : Number.decimal m.toNat = Number.decimal n.toNat := by
    simpa [label, Number.decimalText] using congrArg String.toList same
  have numbers := congrArg (Number.ofDigits? 10) digits
  rw [Number.ofDigits?_decimal, Number.ofDigits?_decimal] at numbers
  exact UInt64.toNat_inj.mp (Option.some.inj numbers)

/-- The names that a counter makes from a number on, one after another. -/
def labels (stem : String) : Nat → UInt64 → List String
  | 0, _ => []
  | count + 1, n => label stem n :: labels stem count (next n)

@[simp] theorem length_labels (stem : String) (count : Nat) (n : UInt64) : (labels stem count n).length = count := by
  induction count generalizing n with
  | zero => rfl
  | succ count ih => simp [labels, ih]

/-- Before the counter comes to its end the names are those of the numbers in turn. -/
theorem mem_labels_iff {stem name : String} {count : Nat} {n : UInt64} (room : n.toNat + count ≤ top.toNat) :
    name ∈ labels stem count n ↔ ∃ k, name = label stem k ∧ n.toNat ≤ k.toNat ∧ k.toNat < n.toNat + count := by
  induction count generalizing n with
  | zero =>
    simp only [labels, List.not_mem_nil, false_iff, not_exists, not_and]
    omega
  | succ count ih =>
    have below : n < top := UInt64.lt_iff_toNat_lt.mpr (by omega)
    have after := next_toNat (ne_top_of_lt below)
    rw [labels, List.mem_cons, ih (by omega), after]
    constructor
    · rintro (rfl | ⟨k, rfl, low, high⟩)
      · exact ⟨n, rfl, by omega, by omega⟩
      · exact ⟨k, rfl, by omega, by omega⟩
    · rintro ⟨k, rfl, low, high⟩
      by_cases first : k = n
      · exact .inl (by rw [first])
      · have apart : k.toNat ≠ n.toNat := fun same => first (UInt64.toNat_inj.mp same)
        exact .inr ⟨k, rfl, by omega, by omega⟩

theorem label_mem_labels_iff {stem : String} {count : Nat} {n k : UInt64} (room : n.toNat + count ≤ top.toNat) :
    label stem k ∈ labels stem count n ↔ n.toNat ≤ k.toNat ∧ k.toNat < n.toNat + count := by
  rw [mem_labels_iff room]
  constructor
  · rintro ⟨m, same, bounds⟩
    exact label_inj same ▸ bounds
  · exact fun bounds => ⟨k, rfl, bounds⟩

theorem nodup_labels {stem : String} {count : Nat} {n : UInt64} (room : n.toNat + count ≤ top.toNat) :
    (labels stem count n).Nodup := by
  induction count generalizing n with
  | zero => exact List.nodup_nil
  | succ count ih =>
    have below : n < top := UInt64.lt_iff_toNat_lt.mpr (by omega)
    have after := next_toNat (ne_top_of_lt below)
    have room' : (next n).toNat + count ≤ top.toNat := by omega
    refine List.nodup_cons.mpr ⟨?_, ih room'⟩
    rw [label_mem_labels_iff room']
    omega

/-- A counter that has not come to its end after some steps has advanced by one with each of them. -/
theorem iterate_next_toNat {count : Nat} {n : UInt64} (room : next^[count] n < top) :
    (next^[count] n).toNat = n.toNat + count := by
  induction count with
  | zero => rfl
  | succ count ih =>
    rw [Function.iterate_succ_apply'] at room ⊢
    rw [next_toNat (ne_top_of_next room), ih (UInt64.lt_of_le_of_lt (le_next _) room), Nat.add_assoc]

/-- Different names, and a counter that has passed every number that one of them is made from. -/
structure Issued (stem : String) (n : UInt64) (names : List String) : Prop where
  apart : names.Nodup
  behind : ∀ k, label stem k ∈ names → k < n

namespace Issued
variable {stem : String} {n : UInt64} {names : List String}

theorem nil : Issued stem n [] := ⟨List.nodup_nil, fun _ used => absurd used List.not_mem_nil⟩

/-- The counter makes a new name next. -/
theorem fresh (issued : Issued stem n names) : label stem n ∉ names :=
  fun used => UInt64.lt_irrefl n (issued.behind n used)

theorem sublist {fewer : List String} (issued : Issued stem n names) (part : fewer.Sublist names) :
    Issued stem n fewer :=
  ⟨issued.apart.sublist part, fun k used => issued.behind k (part.subset used)⟩

theorem push (issued : Issued stem n names) (below : n ≠ top) :
    Issued stem (next n) (names ++ [label stem n]) := by
  refine ⟨?_, ?_⟩
  · rw [← List.concat_eq_append, List.nodup_concat]
    exact ⟨issued.fresh, issued.apart⟩
  · intro k used
    rcases List.mem_append.mp used with old | new
    · exact UInt64.lt_of_lt_of_le (issued.behind k old) (le_next n)
    · rw [label_inj (List.mem_singleton.mp new)]
      exact lt_next_of_ne_top below

theorem of_labels {count : Nat} (room : next^[count] n < top) : Issued stem (next^[count] n) (labels stem count n) := by
  have last := iterate_next_toNat room
  rw [UInt64.lt_iff_toNat_lt, last] at room
  refine ⟨nodup_labels (Nat.le_of_lt room), ?_⟩
  intro k used
  rw [UInt64.lt_iff_toNat_lt, last]
  exact ((label_mem_labels_iff (Nat.le_of_lt room)).mp used).2

end Issued

end DesktopShell.Counter

namespace DesktopShell.Text

/-- A text neither begins nor ends with a blank. -/
structure Unpadded (cs : List Char) : Prop where
  first : ∀ c ∈ cs.head?, isBlank c = false
  last : ∀ c ∈ cs.getLast?, isBlank c = false

private theorem isBlank_head_dropWhile {cs : List Char} {c : Char} (first : c ∈ (cs.dropWhile isBlank).head?) :
    isBlank c = false := by
  have kept := List.head?_dropWhile_not isBlank cs
  rw [Option.mem_def.mp first] at kept
  simpa using kept

private theorem dropWhile_eq_self {cs : List Char} (first : ∀ c ∈ cs.head?, isBlank c = false) :
    cs.dropWhile isBlank = cs := by
  cases cs with
  | nil => rfl
  | cons c rest => simp [first c rfl]

private theorem Unpadded.dropWhile_reverse {cs : List Char} (unpadded : Unpadded cs) :
    cs.reverse.dropWhile isBlank = cs.reverse := by
  apply dropWhile_eq_self
  rw [List.head?_reverse]
  exact unpadded.last

theorem Unpadded.trimmed_eq {cs : List Char} (unpadded : Unpadded cs) : trimmed cs = cs := by
  have start : trimStart cs = cs := dropWhile_eq_self unpadded.first
  rw [trimmed, start, trimEnd, unpadded.dropWhile_reverse, List.reverse_reverse]

theorem unpadded_trimmed (cs : List Char) : Unpadded (trimmed cs) := by
  constructor
  · intro c first
    -- What is left after the end is cut is a front of what was left before.
    have front : trimmed cs <+: trimStart cs := by
      rw [trimmed, trimEnd, ← List.reverse_suffix, List.reverse_reverse]
      exact List.dropWhile_suffix isBlank
    obtain ⟨cut, whole⟩ := front
    have begins : c ∈ (trimStart cs).head? := by
      rw [← whole, List.head?_append, Option.mem_def.mp first]
      rfl
    exact isBlank_head_dropWhile begins
  · intro c last
    rw [trimmed, trimEnd, List.getLast?_reverse] at last
    exact isBlank_head_dropWhile last

theorem trimmed_eq_self_iff {cs : List Char} : trimmed cs = cs ↔ Unpadded cs := by
  constructor
  · intro same
    exact same ▸ unpadded_trimmed cs
  · exact Unpadded.trimmed_eq

theorem trim_eq_self_iff {s : String} : trim s = s ↔ Unpadded s.toList := by
  rw [← trimmed_eq_self_iff, trim]
  constructor
  · intro same
    rw [← String.ofList_toList (s := s), String.ofList_inj] at same
    simpa using same
  · intro same
    rw [same, String.ofList_toList]

/-- Nothing is cut off before the last character that is not blank. -/
theorem trimEnd_append_cons {c : Char} (solid : isBlank c = false) (front rest : List Char) :
    trimEnd (front ++ c :: rest) = front ++ c :: trimEnd rest := by
  have reversed : (front ++ c :: rest).reverse = rest.reverse ++ c :: front.reverse := by simp
  rw [trimEnd, trimEnd, reversed, List.dropWhile_append]
  split
  · rename_i none
    simp [List.isEmpty_iff.mp none, solid]
  · simp

theorem mem_of_mem_trimEnd {cs : List Char} {c : Char} (member : c ∈ trimEnd cs) : c ∈ cs := by
  rw [trimEnd, List.mem_reverse] at member
  exact List.mem_reverse.mp ((List.dropWhile_sublist isBlank).mem member)

theorem trimEnd_eq_self_iff {cs : List Char} : trimEnd cs = cs ↔ ∀ c ∈ cs.getLast?, isBlank c = false := by
  rw [trimEnd, ← List.head?_reverse]
  constructor
  · intro same c first
    rw [← List.reverse_eq_iff.mp same] at first
    exact isBlank_head_dropWhile first
  · intro solid
    rw [dropWhile_eq_self solid, List.reverse_reverse]

/-- Only the ends of a text count. -/
theorem Unpadded.around {front back : List Char} (start : Unpadded front) (finish : Unpadded back) (some : front ≠ [])
    (some' : back ≠ []) (middle : List Char) : Unpadded (front ++ middle ++ back) := by
  constructor
  · intro c first
    rw [List.append_assoc, List.head?_append_of_ne_nil front some] at first
    exact start.first c first
  · intro c last
    rw [List.getLast?_append_of_ne_nil _ some'] at last
    exact finish.last c last

theorem trimmed_cons {c : Char} (blank : isBlank c = true) (cs : List Char) : trimmed (c :: cs) = trimmed cs := by
  rw [trimmed, trimmed, trimStart, trimStart, List.dropWhile_cons, if_pos blank]

theorem trim_trim (s : String) : trim (trim s) = trim s := by
  rw [trim_eq_self_iff, trim, String.toList_ofList]
  exact unpadded_trimmed s.toList

/-- A text is its trimmed text with blanks at its two ends. -/
theorem exists_padding (cs : List Char) :
    ∃ front back, front.all isBlank = true ∧ back.all isBlank = true ∧ cs = front ++ trimmed cs ++ back := by
  have start := List.takeWhile_append_dropWhile (p := isBlank) (l := cs)
  have finish := List.takeWhile_append_dropWhile (p := isBlank) (l := (trimStart cs).reverse)
  refine ⟨cs.takeWhile isBlank, ((trimStart cs).reverse.takeWhile isBlank).reverse, List.all_takeWhile, ?_, ?_⟩
  · rw [List.all_reverse]
    exact List.all_takeWhile
  · rw [List.append_assoc, trimmed, trimEnd, ← List.reverse_append, finish, List.reverse_reverse]
    exact start.symm

/-- Blanks at the two ends of a text are what trimming takes off. -/
theorem trimmed_padded {front body back : List Char} (before : front.all isBlank = true)
    (after : back.all isBlank = true) (unpadded : Unpadded body) : trimmed (front ++ body ++ back) = body := by
  have dropped {gap : List Char} (blank : gap.all isBlank = true) (rest : List Char) :
      (gap ++ rest).dropWhile isBlank = rest.dropWhile isBlank :=
    List.dropWhile_append_of_pos (List.all_eq_true.mp blank)
  rw [trimmed, trimStart, List.append_assoc, dropped before]
  cases body with
  | nil =>
    have nothing : back.dropWhile isBlank = [] := by simpa using dropped after []
    rw [List.nil_append, nothing]
    rfl
  | cons c rest =>
    have solid : isBlank c = false := unpadded.first c rfl
    rw [List.cons_append, List.dropWhile_cons_of_neg (by simp [solid]), ← List.cons_append, trimEnd, List.reverse_append,
      dropped (by rwa [List.all_reverse]), unpadded.dropWhile_reverse, List.reverse_reverse]

/-- A word stands first in a text: only blanks are before it, and a blank or nothing is right after it. -/
structure FirstWord (cs word : List Char) : Prop where
  nonempty : word ≠ []
  solid : ∀ c ∈ word, isBlank c = false
  placed : ∃ front back, cs = front ++ word ++ back ∧ front.all isBlank = true ∧ ∀ c ∈ back.head?, isBlank c = true

/-- A word is its own first word, and it is trimmed. -/
theorem firstWord_self {word : List Char} (nonempty : word ≠ []) (solid : ∀ c ∈ word, isBlank c = false) :
    FirstWord word word :=
  ⟨nonempty, solid, [], [], by simp, rfl, by simp⟩

theorem solid_of_any {cs : List Char} (none : cs.any isBlank = false) : ∀ c ∈ cs, isBlank c = false := by
  simpa using none

theorem unpadded_of_solid {word : List Char} (solid : ∀ c ∈ word, isBlank c = false) : Unpadded word :=
  ⟨fun c first => solid c (List.mem_of_mem_head? first), fun c last => solid c (List.mem_of_mem_getLast? last)⟩

theorem firstWord?_eq_none_iff {cs : List Char} : firstWord? cs = none ↔ cs.all isBlank = true := by
  have stopped : firstWord? cs = none ↔ (trimStart cs).takeWhile (fun c => !isBlank c) = [] := by
    unfold firstWord?
    split <;> simp_all
  rw [stopped, List.all_eq_true, ← List.dropWhile_eq_nil_iff]
  constructor
  · intro none
    cases start : trimStart cs with
    | nil => exact start
    | cons c rest =>
      have first : c ∈ (cs.dropWhile isBlank).head? := by rw [← trimStart, start]; rfl
      have solid : isBlank c = false := isBlank_head_dropWhile first
      simp [start, solid] at none
  · intro none
    rw [trimStart, none, List.takeWhile_nil]

theorem firstWord?_eq_some_iff {cs word : List Char} : firstWord? cs = some word ↔ FirstWord cs word := by
  have found : firstWord? cs = some word ↔ word ≠ [] ∧ (trimStart cs).takeWhile (fun c => !isBlank c) = word := by
    unfold firstWord?
    split
    · rename_i none
      simp [none, eq_comm]
    · rename_i some
      constructor
      · rintro ⟨rfl⟩
        exact ⟨some, rfl⟩
      · rintro ⟨-, rfl⟩
        rfl
  rw [found]
  constructor
  · rintro ⟨nonempty, rfl⟩
    refine ⟨nonempty, fun c member => ?_, cs.takeWhile isBlank, (trimStart cs).dropWhile (fun c => !isBlank c), ?_,
      List.all_takeWhile, fun c first => ?_⟩
    · simpa using List.mem_takeWhile_imp member
    · rw [List.append_assoc, List.takeWhile_append_dropWhile, trimStart, List.takeWhile_append_dropWhile]
    · have kept := List.head?_dropWhile_not (fun c => !isBlank c) (trimStart cs)
      rw [Option.mem_def.mp first] at kept
      simpa using kept
  · rintro ⟨nonempty, solid, front, back, rfl, blank, stops⟩
    refine ⟨nonempty, ?_⟩
    have start : trimStart (front ++ word ++ back) = word ++ back := by
      rw [trimStart, List.append_assoc, List.dropWhile_append_of_pos (List.all_eq_true.mp blank)]
      cases word with
      | nil => exact absurd rfl nonempty
      | cons c rest => exact dropWhile_eq_self fun _ first => (unpadded_of_solid solid).first _ first
    have rest : back.takeWhile (fun c => !isBlank c) = [] := by
      cases back with
      | nil => rfl
      | cons c back => simp [stops c rfl]
    rw [start, List.takeWhile_append_of_pos (by simpa using solid), rest, List.append_nil]

section
variable {α : Type} {separates : α → Bool}

theorem parts_ne_nil (xs : List α) : parts separates xs ≠ [] := by
  cases xs with
  | nil => simp [parts]
  | cons x xs =>
    unfold parts
    split
    · simp
    · split <;> simp

theorem parts_cons_of_separates {x : α} (separator : separates x = true) (xs : List α) :
    parts separates (x :: xs) = [] :: parts separates xs := by
  simp [parts, separator]

/-- A text without separators is joined to the first part of what follows it. -/
theorem parts_append {xs ys part : List α} {rest : List (List α)} (whole : ∀ x ∈ xs, separates x = false)
    (parted : parts separates ys = part :: rest) : parts separates (xs ++ ys) = (xs ++ part) :: rest := by
  induction xs with
  | nil => exact parted
  | cons x xs ih =>
    have first := whole x (by simp)
    have others := ih fun y member => whole y (by simp [member])
    simp [parts, first, others]

theorem separates_of_mem_parts {xs part : List α} {x : α} (listed : part ∈ parts separates xs)
    (member : x ∈ part) : separates x = false := by
  induction xs generalizing part with
  | nil => simp_all [parts]
  | cons y ys ih =>
    unfold parts at listed
    by_cases separator : separates y = true
    · rw [if_pos separator] at listed
      rcases List.mem_cons.mp listed with rfl | later
      · simp at member
      · exact ih later member
    · rw [if_neg separator] at listed
      split at listed
      · rename_i nothing
        exact absurd nothing (parts_ne_nil ys)
      · rename_i head tail parted
        rw [parted] at ih
        rcases List.mem_cons.mp listed with rfl | later
        · rcases List.mem_cons.mp member with rfl | inside
          · simpa using separator
          · exact ih (by simp) inside
        · exact ih (by simp [later]) member

end

end DesktopShell.Text
