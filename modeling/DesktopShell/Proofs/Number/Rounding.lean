import DesktopShell.Proofs.Geometry.Binary64
import Mathlib

/-!
# Rounding in a binary place

A number is rounded in a binary place: it becomes the natural number nearest to it when it
is counted in units of that place (`Rounded`). The place is so high that no number of 53
bits with a lower one comes nearer (`Rounded.least`), and it tells whether the number is
beyond the largest floats (`Rounded.inRange_iff`). Shifting a mantissa and rounding it by
its two last bits does that (`exists_rounded`).
-/
namespace DesktopShell.Binary64
open Float.Model Float.Model.UnpackedFloat

/-- A natural number is nearest to a number, and of two nearest ones it is the even one. -/
structure NearestNat (w : ℚ) (n : ℕ) : Prop where
  near : |(n : ℚ) - w| ≤ 1 / 2
  even : |(n : ℚ) - w| = 1 / 2 → Even n

/-- A mantissa with two more bits says where a number lies: the first bit between which halves, the second one whether
    it is more than the lower one of them. -/
structure Holds (em : ExtendedMantissa) (w : ℚ) : Prop where
  least : ((2 * em.mantissa + em.roundBit.toNat : ℕ) : ℚ) ≤ 2 * w
  next : 2 * w < ((2 * em.mantissa + em.roundBit.toNat : ℕ) : ℚ) + 1
  sticky : em.stickyBit = false ↔ 2 * w = ((2 * em.mantissa + em.roundBit.toNat : ℕ) : ℚ)

theorem holds_exact (mantissa : ℕ) : Holds ⟨mantissa, false, false⟩ mantissa := by
  refine ⟨?_, ?_, ?_⟩ <;> simp

theorem Holds.mantissa_le {em : ExtendedMantissa} {w : ℚ} (holds : Holds em w) : (em.mantissa : ℚ) ≤ w := by
  have least := holds.least
  have bit : (0 : ℚ) ≤ em.roundBit.toNat := Nat.cast_nonneg _
  push_cast at least
  linarith

theorem Holds.lt_mantissa_add_one {em : ExtendedMantissa} {w : ℚ} (holds : Holds em w) : w < em.mantissa + 1 := by
  have next := holds.next
  have bit : (em.roundBit.toNat : ℚ) ≤ 1 := by exact_mod_cast em.roundBit.toNat_le
  push_cast at next
  linarith

theorem Holds.shiftRightOne {em : ExtendedMantissa} {w : ℚ} (holds : Holds em w) :
    Holds em.shiftRightOne (w / 2) := by
  obtain ⟨mantissa, roundBit, stickyBit⟩ := em
  obtain ⟨least, next, sticky⟩ := holds
  have halves : 2 * (mantissa / 2) + (mantissa % 2 != 0).toNat = mantissa := by
    rcases Nat.mod_two_eq_zero_or_one mantissa with even | odd
    · simp [even]
      omega
    · simp [odd]
      omega
  have whole : 2 * (w / 2) = w := by ring
  simp only [ExtendedMantissa.shiftRightOne] at *
  constructor
  all_goals simp only [halves, whole]
  · push_cast at least
    linarith [roundBit.toNat.cast_nonneg (α := ℚ)]
  · cases roundBit <;> simp at next <;> linarith
  · cases roundBit with
    | false =>
      simp only [Bool.false_or, sticky, Bool.toNat_false]
      push_cast
      constructor <;> intro same <;> linarith
    | true =>
      simp only [Bool.true_or, Bool.true_eq_false, false_iff]
      intro same
      simp [same] at least
      linarith

theorem Holds.shift {em : ExtendedMantissa} {w : ℚ} (holds : Holds em w) (n : ℕ) : Holds (em >>> n) (w / 2 ^ n) := by
  induction n with
  | zero =>
    rw [pow_zero, div_one]
    exact holds
  | succ n ih =>
    have step := ih.shiftRightOne
    rwa [div_div, ← pow_succ] at step

theorem nearestNat_of_lt {w : ℚ} {n : ℕ} (near : |(n : ℚ) - w| < 1 / 2) : NearestNat w n :=
  ⟨near.le, fun tie => absurd tie near.ne⟩

/-- The two bits tell which natural number is the nearest. -/
theorem Holds.nearestNat {em : ExtendedMantissa} {w : ℚ} (holds : Holds em w) : NearestNat w em.roundedMantissa := by
  obtain ⟨mantissa, roundBit, stickyBit⟩ := em
  obtain ⟨least, next, sticky⟩ := holds
  cases roundBit with
  | false =>
    have rounded : ExtendedMantissa.roundedMantissa ⟨mantissa, false, stickyBit⟩ = mantissa := by
      cases stickyBit <;> rfl
    rw [rounded]
    simp only [Bool.toNat_false, Nat.add_zero] at least next
    push_cast at least next
    exact nearestNat_of_lt (abs_lt.mpr ⟨by linarith, by linarith⟩)
  | true =>
    simp only [Bool.toNat_true] at least next sticky
    push_cast at least next sticky
    cases stickyBit with
    | false =>
      have half : 2 * w = 2 * mantissa + 1 := sticky.mp rfl
      have even : Even (mantissa + mantissa % 2) := by
        rw [Nat.even_iff]
        omega
      refine ⟨?_, fun _ => even⟩
      change |((mantissa + mantissa % 2 : ℕ) : ℚ) - w| ≤ 1 / 2
      rcases Nat.mod_two_eq_zero_or_one mantissa with down | up
      · rw [down, abs_le]
        push_cast
        constructor <;> linarith
      · rw [up, abs_le]
        push_cast
        constructor <;> linarith
    | true =>
      have more : (2 * mantissa + 1 : ℚ) < 2 * w := lt_of_le_of_ne least fun same => by simp [same] at sticky
      refine nearestNat_of_lt ?_
      change |((mantissa + 1 : ℕ) : ℚ) - w| < 1 / 2
      rw [abs_lt]
      push_cast
      constructor <;> linarith

/-- No other natural number, and no other whole number, is nearer. -/
theorem NearestNat.least {w : ℚ} {n : ℕ} (nearest : NearestNat w n) (k : ℤ) :
    |(n : ℚ) - w| ≤ |(k : ℚ) - w| ∧ (|(n : ℚ) - w| = |(k : ℚ) - w| → k = n ∨ Even n) := by
  by_cases same : k = n
  · subst same
    exact ⟨le_refl _, fun _ => .inl rfl⟩
  · have apart : (1 : ℚ) ≤ |(k : ℚ) - n| := by
      have whole : 1 ≤ |k - (n : ℤ)| := Int.one_le_abs (sub_ne_zero.mpr same)
      exact_mod_cast whole
    have through : |(k : ℚ) - n| ≤ |(k : ℚ) - w| + |(n : ℚ) - w| := by
      have triangle := abs_sub_le (k : ℚ) w n
      rwa [abs_sub_comm w n] at triangle
    have near := nearest.near
    refine ⟨by linarith, fun tie => .inr (nearest.even ?_)⟩
    linarith

/-- A number that is not negative is rounded to a mantissa in a place that is high enough for the mantissa to be short,
    and no higher than the number asks for. -/
structure Rounded (v : ℚ) (mantissa : ℕ) (place : ℤ) : Prop where
  low : -1074 ≤ place
  reach : place = -1074 ∨ 2 ^ 52 * (2 : ℚ) ^ place ≤ v
  short : mantissa ≤ 2 ^ 53
  nearest : NearestNat (v / 2 ^ place) mantissa

section
variable {v : ℚ} {mantissa : ℕ} {place : ℤ}

theorem unit_pos (place : ℤ) : (0 : ℚ) < 2 ^ place := zpow_pos two_pos place

/-- A distance in units of a place. -/
private theorem abs_units (k v : ℚ) (place : ℤ) : |k * 2 ^ place - v| = |k - v / 2 ^ place| * 2 ^ place := by
  have unit := unit_pos place
  rw [← abs_of_pos unit, ← abs_mul, abs_of_pos unit, sub_mul, div_mul_cancel₀ v unit.ne']

/-- Multiples of the place of a rounded number are not nearer. -/
theorem Rounded.least_multiple (rounded : Rounded v mantissa place) (k : ℤ) :
    |(mantissa : ℚ) * 2 ^ place - v| ≤ |(k : ℚ) * 2 ^ place - v| ∧
      (|(mantissa : ℚ) * 2 ^ place - v| = |(k : ℚ) * 2 ^ place - v| → k = mantissa ∨ Even mantissa) := by
  have unit := unit_pos place
  obtain ⟨least, tie⟩ := rounded.nearest.least k
  rw [abs_units, abs_units]
  exact ⟨mul_le_mul_of_nonneg_right least unit.le, fun same => tie (mul_right_cancel₀ unit.ne' same)⟩

/-- Numbers with a mantissa of 53 bits are not nearer, whatever their place is. -/
theorem Rounded.least (rounded : Rounded v mantissa place) {k f : ℤ} (short : k < 2 ^ 53) (low : -1074 ≤ f) :
    |(mantissa : ℚ) * 2 ^ place - v| ≤ |(k : ℚ) * 2 ^ f - v| ∧
      (|(mantissa : ℚ) * 2 ^ place - v| = |(k : ℚ) * 2 ^ f - v| →
        (k : ℚ) * 2 ^ f = mantissa * 2 ^ place ∨ Even mantissa) := by
  rcases le_or_gt place f with above | below
  · -- A higher place is a multiple of the place.
    obtain ⟨n, rfl⟩ : ∃ n : ℕ, f = place + n := ⟨(f - place).toNat, by omega⟩
    have multiple : (k : ℚ) * 2 ^ (place + n) = ((k * 2 ^ n : ℤ) : ℚ) * 2 ^ place := by
      rw [zpow_add₀ two_ne_zero, zpow_natCast]
      push_cast
      ring
    obtain ⟨least, tie⟩ := rounded.least_multiple (k * 2 ^ n)
    rw [multiple]
    refine ⟨least, fun same => (tie same).imp_left fun equal => ?_⟩
    rw [equal, Int.cast_natCast]
  · -- In a lower place all numbers are below the least number that is rounded in this place.
    have reach : 2 ^ 52 * (2 : ℚ) ^ place ≤ v := rounded.reach.resolve_left (by omega)
    have small : (k : ℚ) * 2 ^ f < 2 ^ 52 * 2 ^ place := by
      have short' : (k : ℚ) < 2 ^ 53 := by exact_mod_cast short
      calc (k : ℚ) * 2 ^ f < 2 ^ 53 * 2 ^ f := mul_lt_mul_of_pos_right short' (unit_pos f)
        _ ≤ 2 ^ 53 * 2 ^ (place - 1) := by
            gcongr
            · exact one_le_two
            · omega
        _ = 2 ^ 52 * 2 ^ place := by
            rw [zpow_sub_one₀ two_ne_zero]
            ring
    have least := (rounded.least_multiple (2 ^ 52)).1
    rw [Int.cast_pow, Int.cast_ofNat] at least
    have farther : |2 ^ 52 * (2 : ℚ) ^ place - v| < |(k : ℚ) * 2 ^ f - v| := by
      rw [abs_of_nonpos (by linarith), abs_of_neg (by linarith)]
      linarith
    exact ⟨by linarith, fun same => by linarith⟩

private theorem unit_le {p q : ℤ} (le : p ≤ q) : (2 : ℚ) ^ p ≤ 2 ^ q := zpow_le_zpow_right₀ one_le_two le

/-- Where the halfway mark above a mantissa of 53 ones is not reached, a number is rounded to no longer mantissa. -/
private theorem NearestNat.short_iff {w : ℚ} {n : ℕ} (nearest : NearestNat w n) (short : n ≤ 2 ^ 53) :
    w < 2 ^ 53 - 1 / 2 ↔ n < 2 ^ 53 := by
  have near := abs_le.mp nearest.near
  constructor
  · intro inside
    by_contra long
    have carried : n = 2 ^ 53 := le_antisymm short (not_lt.mp long)
    rw [carried] at near
    push_cast at near
    linarith
  · intro short
    have last : (n : ℚ) + 1 ≤ 2 ^ 53 := by exact_mod_cast short
    refine lt_of_le_of_ne (by linarith) ?_
    rintro rfl
    -- The mark itself goes to the even side, and the last short mantissa is odd.
    have edge : (n : ℚ) = 2 ^ 53 - 1 := by linarith
    have odd : n = 2 ^ 53 - 1 := by
      have next : n + 1 = 2 ^ 53 := by exact_mod_cast eq_sub_iff_add_eq.mp edge
      omega
    have even := nearest.even (by rw [edge]; norm_num)
    rw [odd] at even
    exact absurd even (by decide)

/-- A number that is rounded to a finite float: it is less than half a unit of the place 971 beyond the largest floats,
    whose mantissa in this place is `2 ^ 53 - 1`. -/
def InRange (v : ℚ) : Prop := |v| < (2 ^ 53 - 1 / 2) * 2 ^ (971 : ℤ)

/-- A number is beyond the largest floats exactly when it is rounded in a place above theirs, or in theirs to a mantissa
    that is too long. -/
theorem Rounded.inRange_iff (rounded : Rounded v mantissa place) (nonneg : 0 ≤ v) :
    InRange v ↔ place < 971 ∨ place = 971 ∧ mantissa < 2 ^ 53 := by
  have unit := unit_pos place
  rw [InRange, abs_of_nonneg nonneg]
  rcases lt_trichotomy place 971 with lower | rfl | higher
  · refine iff_of_true ?_ (.inl lower)
    have near := abs_le.mp rounded.nearest.near
    have short : (mantissa : ℚ) ≤ 2 ^ 53 := by exact_mod_cast rounded.short
    have half : (2 : ℚ) ^ (971 : ℤ) = 2 * 2 ^ (970 : ℤ) := zpow_one_add₀ two_ne_zero 970
    have little : (2 : ℚ) ^ place ≤ 2 ^ (970 : ℤ) := unit_le (by omega)
    rw [half]
    generalize (2 : ℚ) ^ (970 : ℤ) = top at little
    calc v = v / 2 ^ place * 2 ^ place := (div_mul_cancel₀ v unit.ne').symm
      _ ≤ (2 ^ 53 + 1) * top := mul_le_mul (by linarith) little unit.le (by positivity)
      _ < (2 ^ 53 - 1 / 2) * (2 * top) := by linarith
  · rw [← div_lt_iff₀ unit, rounded.nearest.short_iff rounded.short]
    exact ⟨fun short => .inr ⟨rfl, short⟩, fun cases => (cases.resolve_left (lt_irrefl _)).2⟩
  · refine iff_of_false ?_ (by omega)
    have reach : 2 ^ 52 * (2 : ℚ) ^ place ≤ v := rounded.reach.resolve_left (by omega)
    have twice : (2 : ℚ) ^ (972 : ℤ) = 2 * 2 ^ (971 : ℤ) := zpow_one_add₀ two_ne_zero 971
    have large : (2 : ℚ) ^ (972 : ℤ) ≤ 2 ^ place := unit_le (by omega)
    have top := unit_pos 971
    rw [twice] at large
    generalize (2 : ℚ) ^ (971 : ℤ) = top' at *
    rw [not_lt]
    linarith

end

/-- The unpacked float of a rounded number. A mantissa that is too long is carried into the next place. -/
def carried (mantissa : ℕ) (place : ℤ) : UnpackedFloat :=
  if zero : mantissa = 0 then .zero .positive
  else if mantissa < 2 ^ 53 then .finite .positive mantissa place (Nat.pos_of_ne_zero zero)
  else .finite .positive (2 ^ 52) (place + 1) (by decide)

/-- The place that a number is shifted to. -/
private def target (mantissa : ℕ) (exponent : ℤ) : ℤ := max (mantissa.log2 + exponent - 52) (-1074)

private theorem shift_eq {mantissa : ℕ} {exponent : ℤ} (accuracy : Accuracy) {n : ℕ}
    (places : (target mantissa exponent - exponent).toNat = n) :
    shiftToTargetExponent Format.binary64 mantissa exponent accuracy =
      (ExtendedMantissa.ofMantissaAndAccuracy mantissa accuracy >>> n, exponent + n) := by
  have same : Format.binary64.targetExponent (totalExponent mantissa exponent) = target mantissa exponent :=
    target_eq mantissa exponent
  simp only [shiftToTargetExponent, shiftToExponent, same, places]

private theorem shift_of_short {mantissa : ℕ} {exponent : ℤ} (short : mantissa < 2 ^ 53) (low : -1074 ≤ exponent) :
    shiftToTargetExponent Format.binary64 mantissa exponent .exact = (⟨mantissa, false, false⟩, exponent) := by
  have bits : mantissa.log2 ≤ 52 := log2_le short
  rw [shift_eq .exact (n := 0) (by rw [target]; omega), Nat.cast_zero, add_zero]
  rfl

private theorem shift_of_carry {exponent : ℤ} (low : -1074 ≤ exponent) :
    shiftToTargetExponent Format.binary64 (2 ^ 53) exponent .exact = (⟨2 ^ 52, false, false⟩, exponent + 1) := by
  have bits : (2 ^ 53).log2 = 53 := Nat.log2_two_pow
  rw [shift_eq .exact (n := 1) (by rw [target, bits]; omega), Nat.cast_one]
  rfl

private theorem round_eq_carried {mantissa n : ℕ} {exponent place : ℤ} {accuracy : Accuracy} {em : ExtendedMantissa}
    (first : shiftToTargetExponent Format.binary64 mantissa exponent accuracy = (em, place))
    (rounded : em.roundedMantissa = n) (short : n ≤ 2 ^ 53) (low : -1074 ≤ place) :
    roundWithAccuracy Format.binary64 .positive mantissa exponent accuracy = carried n place := by
  rcases Nat.lt_or_eq_of_le short with short | rfl
  · simp only [roundWithAccuracy, first, rounded, shift_of_short short low, carried, short, ↓reduceIte]
  · simp only [roundWithAccuracy, first, rounded, shift_of_carry low]
    rfl

/-- A short mantissa is kept as it is. -/
theorem round_of_short {mantissa : ℕ} {exponent : ℤ} (positive : 0 < mantissa) (short : mantissa < 2 ^ 53)
    (low : -1074 ≤ exponent) : roundWithAccuracy Format.binary64 .positive mantissa exponent .exact =
      .finite .positive mantissa exponent positive := by
  have kept : carried mantissa exponent = .finite .positive mantissa exponent positive := by
    simp only [carried, positive.ne', short, ↓reduceDIte, ↓reduceIte]
  exact (round_eq_carried (shift_of_short short low) rfl short.le low).trans kept

/-- A number that is held by a mantissa with an accuracy is rounded, if the mantissa is long enough or its last place
    is below all others. -/
theorem exists_rounded {v : ℚ} {mantissa : ℕ} {exponent : ℤ} {accuracy : Accuracy}
    (holds : Holds (ExtendedMantissa.ofMantissaAndAccuracy mantissa accuracy) (v / 2 ^ exponent))
    (long : 52 ≤ mantissa.log2 ∨ exponent ≤ -1074) :
    ∃ n place, Rounded v n place ∧
      roundWithAccuracy Format.binary64 .positive mantissa exponent accuracy = carried n place := by
  obtain ⟨k, places⟩ : ∃ k : ℕ, target mantissa exponent = exponent + k :=
    ⟨(target mantissa exponent - exponent).toNat, by rw [target]; omega⟩
  have amount : (target mantissa exponent - exponent).toNat = k := by omega
  have first := shift_eq accuracy amount
  have start : (ExtendedMantissa.ofMantissaAndAccuracy mantissa accuracy).mantissa = mantissa := by
    rcases accuracy with _ | order
    · rfl
    · cases order <;> rfl
  generalize ExtendedMantissa.ofMantissaAndAccuracy mantissa accuracy = em at holds first start
  have least := holds.mantissa_le
  have next := holds.lt_mantissa_add_one
  rw [start] at least next
  have scaled : v / 2 ^ exponent / 2 ^ k = v / 2 ^ (exponent + k) := by
    rw [zpow_add₀ two_ne_zero, zpow_natCast, div_div]
  have nearest : NearestNat (v / 2 ^ (exponent + k)) (em >>> k).roundedMantissa := scaled ▸ (holds.shift k).nearestNat
  have low : -1074 ≤ exponent + k := places ▸ le_max_right _ _
  have reach : exponent + (k : ℤ) = -1074 ∨ 2 ^ 52 * (2 : ℚ) ^ (exponent + k) ≤ v := by
    refine or_iff_not_imp_left.mpr fun higher => ?_
    have bits : exponent + k = mantissa.log2 + exponent - 52 := by
      rw [target] at places
      omega
    have nonzero : mantissa ≠ 0 := by
      rintro rfl
      rw [Nat.log2_zero] at bits
      omega
    have large : (2 : ℚ) ^ mantissa.log2 ≤ mantissa := by exact_mod_cast Nat.log2_self_le nonzero
    have unit := unit_pos exponent
    calc 2 ^ 52 * (2 : ℚ) ^ (exponent + k) = 2 ^ mantissa.log2 * 2 ^ exponent := by
          rw [bits, ← zpow_natCast, ← zpow_natCast, ← zpow_add₀ two_ne_zero, ← zpow_add₀ two_ne_zero]
          congr 1
          omega
      _ ≤ v / 2 ^ exponent * 2 ^ exponent := mul_le_mul_of_nonneg_right (large.trans least) unit.le
      _ = v := div_mul_cancel₀ v unit.ne'
  have short : (em >>> k).roundedMantissa ≤ 2 ^ 53 := by
    have bits : mantissa + 1 ≤ 2 ^ (53 + k) := by
      refine Nat.lt_log2_self.trans_le (Nat.pow_le_pow_right (by decide) ?_)
      rw [target] at places
      omega
    have bits' : (mantissa : ℚ) + 1 ≤ 2 ^ (53 + k) := by exact_mod_cast bits
    have small : v / 2 ^ (exponent + k) < 2 ^ 53 := by
      rw [← scaled, div_lt_iff₀ (by positivity), ← pow_add]
      exact next.trans_le bits'
    by_contra more
    have more' : (2 ^ 53 + 1 : ℚ) ≤ (em >>> k).roundedMantissa := by exact_mod_cast not_le.mp more
    linarith [(abs_le.mp nearest.near).2]
  exact ⟨_, exponent + k, ⟨low, reach, short, nearest⟩, round_eq_carried first rfl short low⟩

end DesktopShell.Binary64
