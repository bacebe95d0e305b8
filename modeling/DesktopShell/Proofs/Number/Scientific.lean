import DesktopShell.Number
import DesktopShell.Proofs.Number.Nearest

/-!
# Floats of scientific numbers

A product or a quotient of positive numbers is computed with enough bits to be rounded from
its exact value (`rounds_mul`, `rounds_div`). So `mantissa * 10 ^ exponent` is rounded, be
it computed from two floats that are exact or from natural numbers of any length
(`rounds_nearest`), and so is what a literal stands for (`Literal.rounds_value`).
-/
namespace DesktopShell.Binary64
open Float.Model Float.Model.UnpackedFloat

section
variable {m n : ℕ} {e f : ℤ}

theorem rounds_mul (left : 0 < m) (right : 0 < n) (long : 52 ≤ (m * n).log2 ∨ e + f ≤ -1074) :
    Rounds (m * 2 ^ e * (n * 2 ^ f)) (Float.ofModel (Float.Model.pack
      (UnpackedFloat.mul Format.binary64 (.finite .positive m e left) (.finite .positive n f right)))) := by
  have holds : Holds (ExtendedMantissa.ofMantissaAndAccuracy (m * n) .exact)
      ((m * 2 ^ e * (n * 2 ^ f) : ℚ) / 2 ^ (e + f)) := by
    have same : (m * 2 ^ e * (n * 2 ^ f) : ℚ) / 2 ^ (e + f) = (m * n : ℕ) := by
      rw [zpow_add₀ two_ne_zero]
      push_cast
      field_simp
    rw [same]
    exact holds_exact (m * n)
  obtain ⟨k, place, rounded, result⟩ := exists_rounded holds long
  have product : UnpackedFloat.mul Format.binary64 (.finite .positive m e left) (.finite .positive n f right) =
      carried k place := result
  rw [product]
  exact rounded.rounds (by positivity)

private theorem holds_inside {q : ℕ} {roundBit : Bool} {t : ℚ} (more : (roundBit.toNat : ℚ) < 2 * t)
    (less : 2 * t < roundBit.toNat + 1) : Holds ⟨q, roundBit, true⟩ (q + t) := by
  refine ⟨?_, ?_, ?_⟩
  · push_cast
    linarith
  · push_cast
    linarith
  · simp only [Bool.true_eq_false, false_iff]
    push_cast
    intro same
    linarith

/-- A natural quotient and its remainder hold the exact quotient. -/
private theorem holds_fraction (m : ℕ) (positive : 0 < n) :
    Holds (ExtendedMantissa.ofMantissaAndAccuracy (m / n) (accuracyOfFraction (m % n) n)) ((m : ℚ) / n) := by
  have unit : (0 : ℚ) < n := by exact_mod_cast positive
  have whole : (m : ℚ) / n = (m / n : ℕ) + (m % n : ℕ) / n := by
    rw [div_eq_iff unit.ne', add_mul, div_mul_cancel₀ _ unit.ne']
    exact_mod_cast (Nat.div_add_mod' m n).symm
  have next : ((m % n : ℕ) : ℚ) / n < 1 := (div_lt_one unit).mpr (by exact_mod_cast Nat.mod_lt m positive)
  rw [whole, accuracyOfFraction]
  generalize m % n = r at next ⊢
  by_cases zero : r = 0
  · rw [if_pos zero, zero, Nat.cast_zero, zero_div, add_zero]
    exact holds_exact _
  · have more : (0 : ℚ) < r / n := div_pos (by exact_mod_cast Nat.pos_of_ne_zero zero) unit
    rw [if_neg zero]
    cases half : compare (2 * r) n with
    | lt =>
      have below : 2 * r < n := Nat.compare_eq_lt.mp half
      have below' : 2 * ((r : ℚ) / n) < 1 := by
        rw [← mul_div_assoc, div_lt_one unit]
        exact_mod_cast below
      exact holds_inside (by simpa using more) (by simpa using below')
    | eq =>
      have middle : 2 * r = n := Nat.compare_eq_eq.mp half
      have middle' : (r : ℚ) / n = 1 / 2 := by
        rw [div_eq_div_iff unit.ne' two_ne_zero, one_mul, mul_comm]
        exact_mod_cast middle
      rw [middle']
      constructor <;> simp [ExtendedMantissa.ofMantissaAndAccuracy] <;> linarith
    | gt =>
      have above : n < 2 * r := Nat.compare_eq_gt.mp half
      have above' : 1 < 2 * ((r : ℚ) / n) := by
        rw [← mul_div_assoc, one_lt_div unit]
        exact_mod_cast above
      refine holds_inside (by simpa using above') ?_
      simp only [Bool.toNat_true, Nat.cast_one]
      linarith

/-- A quotient is computed in a place where it has 53 bits or that is the lowest one. -/
private theorem exists_divCore (left : 0 < m) (right : 0 < n) :
    ∃ (place : ℤ) (k : ℕ), e - f = place + k ∧
      divCore Format.binary64 m e n f = (m * 2 ^ k / n, place, accuracyOfFraction (m * 2 ^ k % n) n) ∧
      (52 ≤ (m * 2 ^ k / n).log2 ∨ place ≤ -1074) := by
  obtain ⟨place, same⟩ : ∃ place, place = min (e - f) (max (m.log2 - n.log2 + (e - f) - 53) (-1074)) := ⟨_, rfl⟩
  obtain ⟨k, shift⟩ : ∃ k : ℕ, e - f = place + k := ⟨(e - f - place).toNat, by omega⟩
  have target : min (e - f) (Format.binary64.targetExponent (totalExponent m e - totalExponent n f)) = place := by
    rw [same]
    simp only [Format.targetExponent, totalExponent, Format.mantissaBits, Format.minExponent]
    omega
  have amount : (e - f - place).toNat = k := by omega
  refine ⟨place, k, shift, ?_, or_iff_not_imp_right.mpr fun higher => ?_⟩
  · simp only [divCore, target, amount, Nat.shiftLeft_eq]
  · have bits : n.log2 + 53 ≤ m.log2 + k := by omega
    have large : 2 ^ 52 * n ≤ m * 2 ^ k := by
      calc 2 ^ 52 * n ≤ 2 ^ 52 * 2 ^ (n.log2 + 1) := Nat.mul_le_mul_left _ Nat.lt_log2_self.le
        _ = 2 ^ (n.log2 + 53) := by ring
        _ ≤ 2 ^ (m.log2 + k) := Nat.pow_le_pow_right (by decide) bits
        _ = 2 ^ m.log2 * 2 ^ k := Nat.pow_add 2 _ _
        _ ≤ m * 2 ^ k := Nat.mul_le_mul_right _ (Nat.log2_self_le left.ne')
    have quotient : 2 ^ 52 ≤ m * 2 ^ k / n := (Nat.le_div_iff_mul_le right).mpr large
    exact (Nat.le_log2 (by omega)).mpr quotient

theorem rounds_div (left : 0 < m) (right : 0 < n) :
    Rounds (m * 2 ^ e / (n * 2 ^ f)) (Float.ofModel (Float.Model.pack
      (UnpackedFloat.div Format.binary64 (.finite .positive m e left) (.finite .positive n f right)))) := by
  obtain ⟨place, k, shift, core, long⟩ := exists_divCore (e := e) (f := f) left right
  have holds : Holds (ExtendedMantissa.ofMantissaAndAccuracy (m * 2 ^ k / n) (accuracyOfFraction (m * 2 ^ k % n) n))
      ((m * 2 ^ e / (n * 2 ^ f) : ℚ) / 2 ^ place) := by
    have same : (m * 2 ^ e / (n * 2 ^ f) : ℚ) / 2 ^ place = (m * 2 ^ k : ℕ) / n := by
      obtain rfl : e = f + place + k := by omega
      have unit : (0 : ℚ) < n := by exact_mod_cast right
      rw [zpow_add₀ two_ne_zero, zpow_add₀ two_ne_zero, zpow_natCast]
      push_cast
      field_simp
    rw [same]
    exact holds_fraction (m * 2 ^ k) right
  obtain ⟨q, place, rounded, result⟩ := exists_rounded holds long
  have quotient : UnpackedFloat.div Format.binary64 (.finite .positive m e left) (.finite .positive n f right) =
      carried q place := by
    simp only [UnpackedFloat.div, core]
    exact result
  rw [quotient]
  exact rounded.rounds (by positivity)

end

/-- What is not below the first power of two that no float reaches is out of range. -/
private theorem beyond_of_large {v : ℚ} (large : (2 : ℚ) ^ (1024 : ℤ) ≤ v) : ¬ InRange v := by
  have parts : (2 : ℚ) ^ (1024 : ℤ) = 2 ^ 53 * 2 ^ (971 : ℤ) := by
    rw [← zpow_natCast, ← zpow_add₀ two_ne_zero]
    rfl
  rw [InRange, not_lt]
  calc (2 ^ 53 - 1 / 2) * (2 : ℚ) ^ (971 : ℤ) ≤ 2 ^ 53 * 2 ^ (971 : ℤ) :=
        mul_le_mul_of_nonneg_right (by norm_num) (zpow_pos two_pos _).le
    _ ≤ v := parts ▸ large
    _ ≤ |v| := le_abs_self v

section
variable {mantissa : ℕ} {exponent : ℤ}

private theorem beyond_of_high (positive : 0 < mantissa) (high : 1024 ≤ exponent) :
    ¬ InRange (mantissa * 10 ^ exponent) := by
  have least : (1 : ℚ) ≤ mantissa := by exact_mod_cast positive
  refine beyond_of_large ?_
  calc (2 : ℚ) ^ (1024 : ℤ) ≤ 2 ^ exponent := zpow_le_zpow_right₀ one_le_two high
    _ ≤ 10 ^ exponent := zpow_le_zpow_left₀ (by omega) two_pos.le (by norm_num)
    _ ≤ mantissa * 10 ^ exponent := le_mul_of_one_le_left (by positivity) least

private theorem tiny_of_low (low : mantissa.log2 + exponent ≤ -1076) :
    (mantissa : ℚ) * 10 ^ exponent ≤ 2 ^ (-1075 : ℤ) := by
  have short : (mantissa : ℚ) ≤ 2 ^ ((mantissa.log2 : ℤ) + 1) := by
    exact_mod_cast Nat.lt_log2_self.le
  have power : (10 : ℚ) ^ exponent ≤ 2 ^ exponent := by
    obtain ⟨n, rfl⟩ : ∃ n : ℕ, exponent = -n := ⟨(-exponent).toNat, by omega⟩
    rw [zpow_neg, zpow_neg, zpow_natCast, zpow_natCast]
    exact inv_anti₀ (by positivity) (pow_le_pow_left₀ two_pos.le (by norm_num) n)
  calc (mantissa : ℚ) * 10 ^ exponent ≤ 2 ^ ((mantissa.log2 : ℤ) + 1) * 2 ^ exponent :=
        mul_le_mul short power (by positivity) (by positivity)
    _ = 2 ^ ((mantissa.log2 : ℤ) + 1 + exponent) := (zpow_add₀ two_ne_zero _ _).symm
    _ ≤ 2 ^ (-1075 : ℤ) := zpow_le_zpow_right₀ one_le_two (by omega)

/-- A factor of 53 places makes a mantissa long enough and leaves the number as it is. -/
private theorem rounds_whole {n : ℕ} (left : 0 < mantissa <<< 53) (right : 0 < 10 ^ n) :
    Rounds (mantissa * 10 ^ (n : ℤ)) (Float.ofModel (Float.Model.pack (UnpackedFloat.mul Format.binary64
      (.finite .positive (mantissa <<< 53) (-(53 : ℕ)) left) (.finite .positive (10 ^ n) 0 right)))) := by
  have long : 52 ≤ (mantissa <<< 53 * 10 ^ n).log2 := by
    refine (Nat.le_log2 (Nat.mul_pos left right).ne').mpr ?_
    rw [Nat.shiftLeft_eq] at left ⊢
    have positive : 0 < mantissa := Nat.pos_of_mul_pos_right left
    calc 2 ^ 52 ≤ 1 * 2 ^ 53 * 1 := by decide
      _ ≤ mantissa * 2 ^ 53 * 10 ^ n := Nat.mul_le_mul (Nat.mul_le_mul_right _ positive) right
  have same : (mantissa : ℚ) * (10 : ℚ) ^ (n : ℤ) =
      ((mantissa <<< 53 : ℕ) : ℚ) * (2 : ℚ) ^ (-((53 : ℕ) : ℤ)) * (((10 ^ n : ℕ) : ℚ) * (2 : ℚ) ^ (0 : ℤ)) := by
    rw [Nat.shiftLeft_eq, zpow_neg, zpow_natCast, zpow_natCast, zpow_zero, Nat.cast_mul, Nat.cast_pow, Nat.cast_pow]
    push_cast
    field_simp
  rw [same]
  exact rounds_mul left right (.inl long)

private theorem rounds_fraction {n : ℕ} (left : 0 < mantissa) (right : 0 < 10 ^ n) :
    Rounds (mantissa * 10 ^ (-n : ℤ)) (Float.ofModel (Float.Model.pack (UnpackedFloat.div Format.binary64
      (.finite .positive mantissa 0 left) (.finite .positive (10 ^ n) 0 right)))) := by
  have same : (mantissa : ℚ) * 10 ^ (-n : ℤ) = mantissa * 2 ^ (0 : ℤ) / ((10 ^ n : ℕ) * 2 ^ (0 : ℤ)) := by
    rw [zpow_neg, zpow_natCast, zpow_zero]
    push_cast
    ring
  rw [same]
  exact rounds_div left right

end

/-- A number is rounded from its exact value, but for a power of ten that takes it out of range or down to zero. -/
theorem rounds_ofScientific (mantissa : ℕ) (exponent : ℤ) :
    Rounds (mantissa * 10 ^ exponent) (Float.ofModel (Float.Model.ofScientific mantissa exponent)) := by
  have scale : (2 : ℤ) ^ Format.binary64.exponentBits = 2048 := rfl
  unfold Float.Model.ofScientific UnpackedFloat.ofScientific
  simp only [scale]
  split
  · rename_i zero
    rw [zero, Nat.cast_zero, zero_mul]
    exact rounds_zero (le_refl _) (zpow_pos two_pos _).le
  · rename_i nonzero
    have positive : 0 < mantissa := Nat.pos_of_ne_zero nonzero
    split
    · exact rounds_infinity (beyond_of_high positive (by omega))
    · split
      · exact rounds_zero (by positivity) (tiny_of_low (by omega))
      · split
        · rename_i whole
          obtain ⟨n, rfl⟩ := Int.eq_ofNat_of_zero_le whole
          exact rounds_whole _ _
        · obtain ⟨n, rfl⟩ : ∃ n : ℕ, exponent = -n := ⟨(-exponent).toNat, by omega⟩
          simp only [neg_neg, Int.toNat_natCast]
          exact rounds_fraction _ _

/-- An unpacked float is a positive whole number with a full mantissa. -/
def Whole (n : ℕ) : UnpackedFloat → Prop
  | .finite .positive mantissa exponent _ =>
    2 ^ 52 ≤ mantissa ∧ mantissa * 2 ^ exponent.toNat = n * 2 ^ (-exponent).toNat
  | _ => False

instance (n : ℕ) (u : UnpackedFloat) : Decidable (Whole n u) :=
  match u with
  | .finite .positive mantissa exponent _ => inferInstanceAs (Decidable
      (2 ^ 52 ≤ mantissa ∧ mantissa * 2 ^ exponent.toNat = n * 2 ^ (-exponent).toNat))
  | .finite .negative _ _ _ => inferInstanceAs (Decidable False)
  | .zero _ => inferInstanceAs (Decidable False)
  | .infinity _ => inferInstanceAs (Decidable False)
  | .notANumber => inferInstanceAs (Decidable False)

theorem Whole.exists_finite {n : ℕ} {u : UnpackedFloat} (whole : Whole n u) : ∃ mantissa exponent positive,
    u = .finite .positive mantissa exponent positive ∧ 2 ^ 52 ≤ mantissa ∧ (mantissa : ℚ) * 2 ^ exponent = n := by
  unfold Whole at whole
  split at whole
  · rename_i mantissa exponent positive
    obtain ⟨full, same⟩ := whole
    refine ⟨mantissa, exponent, positive, rfl, full, ?_⟩
    have same' : (mantissa : ℚ) * 2 ^ exponent.toNat = n * 2 ^ (-exponent).toNat := by exact_mod_cast same
    obtain ⟨k, rfl | rfl⟩ := exponent.eq_nat_or_neg
    · simpa using same'
    · have unit : (2 : ℚ) ^ k ≠ 0 := by positivity
      rw [zpow_neg, zpow_natCast, ← div_eq_mul_inv, div_eq_iff unit]
      simpa using same'
  · exact whole.elim

/-- A natural number of 53 bits is a float without being rounded. -/
theorem whole_toFloat {n : ℕ} (positive : 0 < n) (short : n < 2 ^ 53) :
    Whole n n.toUInt64.toFloat.toModel.unpack := by
  have word : n.toUInt64.toNat = n := UInt64.toNat_ofNat_of_lt' (short.trans (by decide))
  have model : n.toUInt64.toFloat.toModel =
      Float.Model.pack (UnpackedFloat.normalize Format.binary64 (n.toUInt64.toNat : ℤ) 0 .positive) := rfl
  have bits : n.log2 ≤ 52 := log2_le short
  obtain ⟨k, room⟩ : ∃ k : ℕ, n.log2 + k = 52 := ⟨52 - n.log2, by omega⟩
  have amount : (0 - Format.binary64.targetExponent (totalExponent n 0)).toNat = k := by
    rw [target_eq]
    omega
  have least : 2 ^ 52 ≤ n <<< k := by
    rw [Nat.shiftLeft_eq, ← room, Nat.pow_add]
    exact Nat.mul_le_mul_right _ (Nat.log2_self_le positive.ne')
  have next : n <<< k < 2 ^ 53 := by
    rw [Nat.shiftLeft_eq, show 53 = n.log2 + 1 + k by omega, Nat.pow_add 2 (n.log2 + 1)]
    exact Nat.mul_lt_mul_of_pos_right Nat.lt_log2_self (Nat.two_pow_pos k)
  have greater : compare (n : ℤ) 0 = .gt := Int.compare_eq_gt.mpr (by omega)
  have normal : UnpackedFloat.normalize Format.binary64 (n : ℤ) 0 .positive =
      .finite .positive (n <<< k) (0 - k) (by omega) := by
    simp only [UnpackedFloat.normalize, greater, Int.toNat_natCast, UnpackedFloat.round, decreaseExponent, amount]
    exact round_of_short _ next (by omega)
  rw [model, word, normal, unpack_pack ⟨next, by omega, .inl least⟩ (by omega)]
  refine ⟨least, ?_⟩
  simp [Nat.shiftLeft_eq]

section
variable {m n : ℕ} {x y : Float}

theorem rounds_mul_whole (left : Whole m x.toModel.unpack) (right : Whole n y.toModel.unpack) :
    Rounds (m * n) (x * y) := by
  obtain ⟨k, e, positive, unpacked, full, number⟩ := left.exists_finite
  obtain ⟨l, f, positive', unpacked', -, number'⟩ := right.exists_finite
  have long : 52 ≤ (k * l).log2 :=
    (Nat.le_log2 (Nat.mul_pos positive positive').ne').mpr (full.trans (Nat.le_mul_of_pos_right k positive'))
  have model : x * y = Float.ofModel (Float.Model.pack
      (UnpackedFloat.mul Format.binary64 x.toModel.unpack y.toModel.unpack)) := rfl
  rw [model, unpacked, unpacked', ← number, ← number']
  exact rounds_mul positive positive' (.inl long)

theorem rounds_div_whole (left : Whole m x.toModel.unpack) (right : Whole n y.toModel.unpack) :
    Rounds (m / n) (x / y) := by
  obtain ⟨k, e, positive, unpacked, -, number⟩ := left.exists_finite
  obtain ⟨l, f, positive', unpacked', -, number'⟩ := right.exists_finite
  have model : x / y = Float.ofModel (Float.Model.pack
      (UnpackedFloat.div Format.binary64 x.toModel.unpack y.toModel.unpack)) := rfl
  rw [model, unpacked, unpacked', ← number, ← number']
  exact rounds_div positive positive'

/-- Zero stays zero, whatever whole number it is multiplied with or divided by. -/
private theorem rounds_zero_whole (right : Whole n y.toModel.unpack) :
    Rounds 0 ((0 : ℕ).toUInt64.toFloat * y) ∧ Rounds 0 ((0 : ℕ).toUInt64.toFloat / y) := by
  obtain ⟨l, f, positive, unpacked, -⟩ := right.exists_finite
  have zero : (0 : ℕ).toUInt64.toFloat.toModel.unpack = .zero .positive := unpack_pack_zero _
  have product : (0 : ℕ).toUInt64.toFloat * y = Float.ofModel (Float.Model.pack
      (UnpackedFloat.mul Format.binary64 (0 : ℕ).toUInt64.toFloat.toModel.unpack y.toModel.unpack)) := rfl
  have quotient : (0 : ℕ).toUInt64.toFloat / y = Float.ofModel (Float.Model.pack
      (UnpackedFloat.div Format.binary64 (0 : ℕ).toUInt64.toFloat.toModel.unpack y.toModel.unpack)) := rfl
  rw [product, quotient, zero, unpacked]
  exact ⟨rounds_zero (le_refl _) (zpow_pos two_pos _).le, rounds_zero (le_refl _) (zpow_pos two_pos _).le⟩

end

private theorem whole_powerOfTen : ∀ i : Fin Float.exactlyRepresentablePowersOfTen.size,
    Whole (10 ^ i.val) Float.exactlyRepresentablePowersOfTen[i].toModel.unpack := by
  decide +kernel

end DesktopShell.Binary64

namespace DesktopShell.Number
open Binary64

/-- The number that a literal stands for. -/
def Literal.toRat (l : Literal) : ℚ := (if l.negative then -1 else 1) * (l.mantissa * 10 ^ l.exponent)

/-- A mantissa of 53 bits and a power of ten are exact as floats, as long as the power is short. -/
private theorem rounds_exact {mantissa : ℕ} (short : mantissa < 2 ^ 53) {n : ℕ} {y : Float}
    (power : Whole (10 ^ n) y.toModel.unpack) :
    Rounds (mantissa * 10 ^ (n : ℤ)) (mantissa.toUInt64.toFloat * y) ∧
      Rounds (mantissa * 10 ^ (-n : ℤ)) (mantissa.toUInt64.toFloat / y) := by
  rw [zpow_neg, zpow_natCast, ← div_eq_mul_inv]
  rcases Nat.eq_zero_or_pos mantissa with rfl | positive
  · rw [Nat.cast_zero, zero_mul, zero_div]
    exact rounds_zero_whole power
  · have product := rounds_mul_whole (whole_toFloat positive short) power
    have quotient := rounds_div_whole (whole_toFloat positive short) power
    rw [Nat.cast_pow] at product quotient
    exact ⟨product, quotient⟩

/-- The float for a mantissa and a power of ten is their exact product rounded. -/
theorem rounds_nearest (mantissa : ℕ) (exponent : ℤ) :
    Rounds (mantissa * 10 ^ exponent) (nearest mantissa exponent) := by
  cases exponent with
  | ofNat n =>
    have nonneg : decide (Int.ofNat n < 0) = false := decide_eq_false (Int.not_lt.mpr (Int.natCast_nonneg n))
    rw [nearest, nonneg, Int.natAbs_ofNat']
    unfold Float.ofScientific
    split
    · rename_i small
      have listed := small.2.trans_lt (by decide : 22 < Float.exactlyRepresentablePowersOfTen.size)
      exact (rounds_exact small.1 (whole_powerOfTen ⟨n, listed⟩)).1
    · exact rounds_ofScientific mantissa n
  | negSucc n =>
    have negative : decide (Int.negSucc n < 0) = true := decide_eq_true (Int.negSucc_lt_zero n)
    rw [nearest, negative, Int.natAbs_negSucc, Int.negSucc_eq, ← Int.natCast_succ]
    unfold Float.ofScientific
    split
    · rename_i small
      have listed := small.2.trans_lt (by decide : 22 < Float.exactlyRepresentablePowersOfTen.size)
      exact (rounds_exact small.1 (whole_powerOfTen ⟨n + 1, listed⟩)).2
    · exact rounds_ofScientific mantissa (-(n + 1 : ℕ))

theorem Literal.rounds_value (l : Literal) : Rounds l.toRat l.value := by
  have rounds := rounds_nearest l.mantissa l.exponent
  unfold Literal.toRat Literal.value
  cases l.negative with
  | true =>
    simp only [↓reduceIte, neg_one_mul]
    exact rounds.neg
  | false =>
    simp only [Bool.false_eq_true, ↓reduceIte, one_mul]
    exact rounds

end DesktopShell.Number
