import DesktopShell.Geometry
import Mathlib

/-!
# Floats that stay finite

A sum or a product of floats is a number again as long as its exact value stays
below the largest floats by half a unit in the last place. The argument follows
the last binary place that a number uses: `Bounded top x` says that `x` is a
number and that its last place is at most `2 ^ top`. The largest floats use the
place 971, so adding anything whose last place is at most 917 cannot round up to
infinity (`isFinite_add`).
-/
namespace DesktopShell.Binary64
open Float.Model Float.Model.UnpackedFloat

/-- A finite number whose last binary place is at most `2 ^ top`, or zero. -/
def Within (top : Int) : UnpackedFloat → Prop
  | .zero _ => True
  | .finite _ _ exponent _ => exponent ≤ top
  | _ => False

instance (top : Int) (u : UnpackedFloat) : Decidable (Within top u) :=
  match u with
  | .zero _ => inferInstanceAs (Decidable True)
  | .finite _ _ exponent _ => inferInstanceAs (Decidable (exponent ≤ top))
  | .infinity _ => inferInstanceAs (Decidable False)
  | .notANumber => inferInstanceAs (Decidable False)

theorem Within.cases {top : Int} {u : UnpackedFloat} (within : Within top u) :
    (∃ sign, u = .zero sign) ∨
      ∃ sign mantissa exponent positive, u = .finite sign mantissa exponent positive ∧ exponent ≤ top := by
  match u with
  | .zero sign => exact .inl ⟨sign, rfl⟩
  | .finite sign mantissa exponent positive => exact .inr ⟨sign, mantissa, exponent, positive, rfl, within⟩

private theorem mantissa_shift (em : ExtendedMantissa) (n : Nat) :
    (em >>> n).mantissa = em.mantissa / 2 ^ n := by
  change (n.repeat ExtendedMantissa.shiftRightOne em).mantissa = _
  induction n with
  | zero => simp [Nat.repeat]
  | succ n ih =>
    change (n.repeat ExtendedMantissa.shiftRightOne em).mantissa / 2 = _
    rw [ih, Nat.div_div_eq_div_mul, Nat.pow_succ]

private theorem roundedMantissa_le (em : ExtendedMantissa) :
    em.roundedMantissa ≤ em.mantissa + em.roundBit.toNat := by
  obtain ⟨mantissa, round, sticky⟩ := em
  cases round <;> cases sticky <;>
    simp [ExtendedMantissa.roundedMantissa, ExtendedMantissa.accuracy, Accuracy.roundToNearestEven]
  omega

/-- Rounding loses at most half a unit of the last place that is left. -/
theorem roundedMantissa_shift_le (em : ExtendedMantissa) (n : Nat) :
    (em >>> (n + 1)).roundedMantissa ≤ (em.mantissa / 2 ^ n + 1) / 2 := by
  have last : em >>> (n + 1) = (em >>> n).shiftRightOne := rfl
  have bound := roundedMantissa_le (em >>> n).shiftRightOne
  rw [last]
  generalize rounded : (em >>> n).shiftRightOne.roundedMantissa = r at *
  simp only [ExtendedMantissa.shiftRightOne, mantissa_shift] at bound
  cases odd : (em.mantissa / 2 ^ n % 2 != 0) <;> simp [odd] at bound <;> simp at odd <;> omega

/-- `mantissa * 2 ^ exponent` does not round to a place above `2 ^ top`: it is less than half a unit
    of that place above the largest mantissa. -/
structure Fits (top : Int) (mantissa : Nat) (exponent : Int) : Prop where
  small : mantissa < (2 ^ 54 - 1) * 2 ^ (top - 1 - exponent).toNat
  low : exponent < top
  normal : -1074 < top

theorem target_eq (mantissa : Nat) (exponent : Int) :
    Format.binary64.targetExponent (totalExponent mantissa exponent) =
      max (mantissa.log2 + exponent - 52) (-1074) := by
  simp only [Format.targetExponent, totalExponent, Format.mantissaBits, Format.minExponent]
  omega

theorem log2_le {n k : Nat} (small : n < 2 ^ (k + 1)) : n.log2 ≤ k := by
  by_cases zero : n = 0
  · simp [zero]
  · exact Nat.lt_succ_iff.mp ((Nat.log2_lt zero).mpr small)

private theorem log2_le_of_fits {top exponent : Int} {mantissa : Nat} (fits : Fits top mantissa exponent) :
    mantissa.log2 ≤ (top - 1 - exponent).toNat + 53 := by
  have small := fits.small
  generalize (top - 1 - exponent).toNat = n at *
  refine log2_le (small.trans_le ?_)
  rw [Nat.add_assoc, Nat.pow_add 2 n, Nat.mul_comm]
  exact Nat.mul_le_mul_left _ (by decide)

section
variable {mantissa : Nat} {exponent : Int}

/-- The rounding places of a number: what its mantissa becomes in the first shift, and where it ends. -/
private def firstShift (mantissa : Nat) (exponent : Int) : ExtendedMantissa × Int :=
  shiftToTargetExponent Format.binary64 mantissa exponent .exact

private theorem firstShift_place (mantissa : Nat) (exponent : Int) :
    (firstShift mantissa exponent).2 = max exponent (max (mantissa.log2 + exponent - 52) (-1074)) := by
  have target := target_eq mantissa exponent
  simp only [firstShift, shiftToTargetExponent, shiftToExponent]
  omega

private theorem firstShift_kept (kept : mantissa.log2 + exponent - 52 ≤ exponent) (normal : -1074 ≤ exponent) :
    (firstShift mantissa exponent).1.roundedMantissa = mantissa := by
  have target := target_eq mantissa exponent
  have shift : (Format.binary64.targetExponent (totalExponent mantissa exponent) - exponent).toNat = 0 := by omega
  simp only [firstShift, shiftToTargetExponent, shiftToExponent, shift]
  rfl

private theorem firstShift_dropped {k : Nat} (dropped : (firstShift mantissa exponent).2 = exponent + (k + 1 : Nat)) :
    (firstShift mantissa exponent).1.roundedMantissa ≤ (mantissa / 2 ^ k + 1) / 2 := by
  have target := target_eq mantissa exponent
  rw [firstShift_place] at dropped
  have shift : (Format.binary64.targetExponent (totalExponent mantissa exponent) - exponent).toNat = k + 1 := by
    omega
  simp only [firstShift, shiftToTargetExponent, shiftToExponent, shift]
  exact roundedMantissa_shift_le _ k

/-- After the first shift a number that fits has no more places than fit either: its mantissa may have
    one bit too many only below the top place. -/
private theorem firstShift_fits {top : Int} (fits : Fits top mantissa exponent) :
    (firstShift mantissa exponent).2 ≤ top ∧
      (firstShift mantissa exponent).1.roundedMantissa.log2 + (firstShift mantissa exponent).2 - 52 ≤ top := by
  have place := firstShift_place mantissa exponent
  have logarithm := log2_le_of_fits fits
  obtain ⟨small, low, normal⟩ := fits
  by_cases kept : (firstShift mantissa exponent).2 = exponent
  · rw [firstShift_kept (by omega) (by omega)]
    omega
  · obtain ⟨k, dropped⟩ : ∃ k : Nat, (firstShift mantissa exponent).2 = exponent + (k + 1 : Nat) :=
      ⟨((firstShift mantissa exponent).2 - exponent - 1).toNat, by omega⟩
    have rounded := firstShift_dropped dropped
    -- In the top place the number has less than the largest mantissa and a half.
    by_cases edge : k = (top - 1 - exponent).toNat
    · have quotient : mantissa / 2 ^ k < 2 ^ 54 - 1 := by
        rw [Nat.div_lt_iff_lt_mul (Nat.two_pow_pos k), edge]
        exact small
      have bits : (firstShift mantissa exponent).1.roundedMantissa.log2 ≤ 52 := log2_le (by omega)
      omega
    · have quotient : mantissa / 2 ^ k < 2 ^ 54 := by
        rw [Nat.div_lt_iff_lt_mul (Nat.two_pow_pos k), ← Nat.pow_add]
        exact Nat.lt_log2_self.trans_le (Nat.pow_le_pow_right (by decide) (by omega))
      have bits : (firstShift mantissa exponent).1.roundedMantissa.log2 ≤ 53 := log2_le (by omega)
      omega

end

theorem within_roundWithAccuracy (sign : Sign) {mantissa : Nat} {exponent top : Int}
    (fits : Fits top mantissa exponent) :
    Within top (roundWithAccuracy Format.binary64 sign mantissa exponent .exact) := by
  obtain ⟨place, rounded⟩ := firstShift_fits fits
  have normal := fits.normal
  unfold roundWithAccuracy
  change Within top
    (let (em, e) := firstShift mantissa exponent
     let (last, e) := shiftToTargetExponent Format.binary64 em.roundedMantissa e .exact
     if h : last.mantissa = 0 then .zero sign else .finite sign last.mantissa e (Nat.pos_of_ne_zero h))
  generalize firstShift mantissa exponent = shifted at *
  have final : (shiftToTargetExponent Format.binary64 shifted.1.roundedMantissa shifted.2 .exact).2 ≤ top := by
    have target := target_eq shifted.1.roundedMantissa shifted.2
    simp only [shiftToTargetExponent, shiftToExponent]
    omega
  dsimp only
  split
  · trivial
  · exact final

private theorem within_round (sign : Sign) {mantissa : Nat} {exponent top : Int} (fits : Fits top mantissa exponent) :
    Within top (UnpackedFloat.round Format.binary64 sign mantissa exponent) := by
  dsimp only [UnpackedFloat.round, decreaseExponent]
  generalize (exponent - Format.binary64.targetExponent (totalExponent mantissa exponent)).toNat = k
  obtain ⟨small, low, normal⟩ := fits
  refine within_roundWithAccuracy sign ⟨?_, by omega, normal⟩
  have room : (top - 1 - (exponent - k)).toNat = (top - 1 - exponent).toNat + k := by omega
  rw [room, Nat.shiftLeft_eq, Nat.pow_add, ← Nat.mul_assoc]
  exact Nat.mul_lt_mul_of_pos_right small (Nat.two_pow_pos k)

theorem within_normalize {mantissa : Int} {exponent top : Int} (zero : Sign)
    (fits : Fits top mantissa.natAbs exponent) :
    Within top (UnpackedFloat.normalize Format.binary64 mantissa exponent zero) := by
  unfold UnpackedFloat.normalize
  split
  · rename_i negative
    have same : (-mantissa).toNat = mantissa.natAbs := by
      have := Int.compare_eq_lt.mp negative
      omega
    exact within_round .negative (same ▸ fits)
  · trivial
  · rename_i positive
    have same : mantissa.toNat = mantissa.natAbs := by
      have := Int.compare_eq_gt.mp positive
      omega
    exact within_round .positive (same ▸ fits)

private theorem within_unpack_components (sign : Sign) {exponent : BitVec 11} (mantissa : BitVec 52)
    {top : Int} (place : (exponent.toNat : Int) - 1075 ≤ top) (low : -1074 ≤ top) (number : exponent ≠ -1#11) :
    Within top (UnpackedFloat.unpack Format.binary64 (packComponents Format.binary64 sign exponent mantissa)) := by
  have bias : (Format.exponentBias Format.binary64 : Int) = 1023 := by decide
  simp only [UnpackedFloat.unpack, unpackExponent_packComponents, unpackMantissa_packComponents, if_neg number]
  split
  · rename_i subnormal
    split
    · trivial
    · simp only [Within, subnormal, bias]
      simp
      omega
  · simp only [Within, bias]
    omega

/-- Packing keeps a number within its last place. -/
theorem within_pack {u : UnpackedFloat} {top : Int} (within : Within top u) (low : -1074 ≤ top)
    (high : top ≤ 971) : Within top (Float.Model.pack u).unpack := by
  have bias : (Format.exponentBias Format.binary64 : Int) = 1023 := by decide
  change Within top (UnpackedFloat.unpack Format.binary64 (UnpackedFloat.pack Format.binary64 u))
  match u with
  | .zero sign => exact within_unpack_components sign 0 (by simp; omega) low (by decide)
  | .finite sign mantissa exponent _ =>
    simp only [Within] at within
    simp only [UnpackedFloat.pack, bias]
    rw [if_neg (by omega)]
    split
    · refine within_unpack_components sign _ ?_ low ?_
      · simp
        omega
      · intro full
        have := congrArg BitVec.toNat full
        simp at this
        omega
    · exact within_unpack_components sign _ (by simp; omega) low (by decide)

/-- The form in which a finite number is packed: a mantissa of 53 bits, or of fewer in the lowest place. -/
structure Canonical (mantissa : Nat) (exponent : Int) : Prop where
  short : mantissa < 2 ^ 53
  place : -1074 ≤ exponent
  normal : 2 ^ 52 ≤ mantissa ∨ exponent = -1074

theorem canonical_unpack {b : BitVec 64} {sign : Sign} {mantissa : Nat} {exponent : Int} {positive : 0 < mantissa}
    (unpacked : UnpackedFloat.unpack Format.binary64 b = .finite sign mantissa exponent positive) :
    Canonical mantissa exponent ∧ exponent ≤ 971 := by
  have bias : (Format.exponentBias Format.binary64 : Int) = 1023 := by decide
  have mantissaBound := (@unpackMantissa Format.binary64 b).isLt
  have exponentBound := (@unpackExponent Format.binary64 b).isLt
  simp only [UnpackedFloat.unpack, bias] at unpacked
  split at unpacked
  · split at unpacked <;> cases unpacked
  · rename_i number
    have place : (@unpackExponent Format.binary64 b).toNat ≠ 2047 := fun full =>
      number (BitVec.eq_of_toNat_eq full)
    split at unpacked
    · rename_i subnormal
      split at unpacked
      · cases unpacked
      · cases unpacked
        have lowest : ((@unpackExponent Format.binary64 b).toNat : Int) - (1023 + (52 : Nat)) + 1 = -1074 := by
          rw [subnormal]
          decide
        exact ⟨⟨mantissaBound.trans (by decide), lowest.ge, .inr lowest⟩, lowest.trans_le (by decide)⟩
    · rename_i normal
      have nonzero : (@unpackExponent Format.binary64 b).toNat ≠ 0 := fun zero => normal (BitVec.eq_of_toNat_eq zero)
      cases unpacked
      simp only [BitVec.toNat_append, BitVec.toNat_ofNat, ← Nat.shiftLeft_add_eq_or_of_lt mantissaBound] at *
      exact ⟨⟨by omega, by omega, .inl (by omega)⟩, by omega⟩

/-- The last place of a float is at most `2 ^ top`, and it is a number. -/
def Bounded (top : Int) (x : Float) : Prop := Within top x.toModel.unpack

instance (top : Int) (x : Float) : Decidable (Bounded top x) :=
  inferInstanceAs (Decidable (Within top x.toModel.unpack))

theorem Bounded.isFinite {top : Int} {x : Float} (bounded : Bounded top x) : x.isFinite = true := by
  change x.toModel.unpack.isFinite = true
  unfold Bounded at bounded
  cases unpacked : x.toModel.unpack <;> simp_all [Within, UnpackedFloat.isFinite]

/-- The largest floats have the place 971. -/
theorem bounded_of_isFinite {x : Float} (finite : x.isFinite = true) : Bounded 971 x := by
  change x.toModel.unpack.isFinite = true at finite
  unfold Bounded
  cases unpacked : x.toModel.unpack with
  | infinity sign => simp [unpacked, UnpackedFloat.isFinite] at finite
  | notANumber => simp [unpacked, UnpackedFloat.isFinite] at finite
  | zero sign => trivial
  | finite sign mantissa exponent positive => exact (canonical_unpack unpacked).2

private theorem natAbs_apply (sign : Sign) (n : Nat) : (sign.apply n).natAbs = n := by
  cases sign <;> simp [Sign.apply]

private theorem aligned_sum_lt {m n a b k : Nat} (left : m < 2 ^ 53) (right : n < 2 ^ 53) (high : a ≤ k + 1)
    (low : b + 53 ≤ k) : m * 2 ^ a + n * 2 ^ b < (2 ^ 54 - 1) * 2 ^ k := by
  have large : m * 2 ^ a ≤ (2 ^ 53 - 1) * 2 ^ (k + 1) :=
    Nat.mul_le_mul (by omega) (Nat.pow_le_pow_right (by decide) high)
  have little : n * 2 ^ b < 2 ^ k := by
    calc n * 2 ^ b < 2 ^ 53 * 2 ^ b := Nat.mul_lt_mul_of_pos_right right (Nat.two_pow_pos b)
      _ = 2 ^ (b + 53) := by rw [Nat.pow_add, Nat.mul_comm]
      _ ≤ 2 ^ k := Nat.pow_le_pow_right (by decide) low
  rw [Nat.pow_succ] at large
  omega

/-- A sum with a number far below the largest floats is finite. -/
theorem isFinite_add {x y : Float} (finite : x.isFinite = true) (bounded : Bounded 917 y) :
    (x + y).isFinite = true := by
  have sum : (x + y).toModel =
      Float.Model.pack (UnpackedFloat.add Format.binary64 x.toModel.unpack y.toModel.unpack) := rfl
  suffices exact : Within 971 (UnpackedFloat.add Format.binary64 x.toModel.unpack y.toModel.unpack) by
    have rounded : Bounded 971 (x + y) := by
      rw [Bounded, sum]
      exact within_pack exact (by decide) (by decide)
    exact rounded.isFinite
  rcases (bounded_of_isFinite finite).cases with ⟨s, first⟩ | ⟨s, m, e, positive, first, high⟩
  · rcases bounded.cases with ⟨t, second⟩ | ⟨t, n, f, positive, second, low⟩
    · rw [first, second]
      cases s <;> cases t <;> trivial
    · rw [first, second]
      exact Int.le_trans low (by decide)
  · rcases bounded.cases with ⟨t, second⟩ | ⟨t, n, f, positive', second, low⟩
    · rw [first, second]
      exact high
    · rw [first, second]
      refine within_normalize _ ⟨?_, by omega, by decide⟩
      refine (Int.natAbs_add_le _ _).trans_lt ?_
      rw [natAbs_apply, natAbs_apply]
      simp only [Nat.shiftLeft_eq]
      exact aligned_sum_lt (canonical_unpack first).1.short (canonical_unpack second).1.short (by omega) (by omega)

/-- A product stays within the places that its factors have together. -/
theorem Bounded.mul {j k top : Int} {x y : Float} (left : Bounded j x) (right : Bounded k y)
    (room : j + k + 54 ≤ top) (normal : -1074 < top) (high : top ≤ 971) : Bounded top (x * y) := by
  have product : (x * y).toModel =
      Float.Model.pack (UnpackedFloat.mul Format.binary64 x.toModel.unpack y.toModel.unpack) := rfl
  rw [Bounded, product]
  refine within_pack ?_ (by omega) high
  rcases left.cases with ⟨s, first⟩ | ⟨s, m, e, positive, first, low⟩
  · rcases right.cases with ⟨t, second⟩ | ⟨t, n, f, positive, second, _⟩
    · rw [first, second]
      trivial
    · rw [first, second]
      trivial
  · rcases right.cases with ⟨t, second⟩ | ⟨t, n, f, positive', second, low'⟩
    · rw [first, second]
      trivial
    · rw [first, second]
      refine within_roundWithAccuracy _ ⟨?_, by omega, normal⟩
      calc m * n < 2 ^ 53 * 2 ^ 53 := Nat.mul_lt_mul'' (canonical_unpack first).1.short (canonical_unpack second).1.short
        _ ≤ (2 ^ 54 - 1) * 2 ^ 53 := by decide
        _ ≤ (2 ^ 54 - 1) * 2 ^ (top - 1 - (e + f)).toNat :=
            Nat.mul_le_mul_left _ (Nat.pow_le_pow_right (by decide) (by omega))

private theorem bounded_toFloat (n : UInt64) : Bounded 12 n.toFloat := by
  have small := n.toNat_lt
  have model : n.toFloat.toModel =
      Float.Model.pack (UnpackedFloat.normalize Format.binary64 (n.toNat : Int) 0 .positive) := rfl
  rw [Bounded, model]
  refine within_pack (within_normalize _ ⟨?_, by decide, by decide⟩) (by decide) (by decide)
  rw [Int.natAbs_natCast]
  exact small.trans (by decide)

private theorem within_ofScientific {n : Nat} (word : n < 2 ^ 64) :
    Within 14 (UnpackedFloat.ofScientific Format.binary64 n 0) := by
  unfold UnpackedFloat.ofScientific
  split
  · trivial
  · have scale : (2 : Int) ^ Format.binary64.exponentBits = 2048 := rfl
    have bits : Format.binary64.mantissaBits = 53 := rfl
    rw [if_neg (by decide), if_neg (by omega), if_pos (by decide)]
    simp only [UnpackedFloat.mul, bits, Nat.shiftLeft_eq, Int.toNat_zero, Nat.pow_zero, Nat.mul_one]
    refine within_roundWithAccuracy _ ⟨?_, by decide, by decide⟩
    calc n * 2 ^ 53 < 2 ^ 64 * 2 ^ 53 := Nat.mul_lt_mul_of_pos_right word (by decide)
      _ ≤ (2 ^ 54 - 1) * 2 ^ 66 := by decide

/-- The float of a number of 64 bits is far below the largest floats. -/
theorem bounded_ofScientific {n : Nat} (word : n < 2 ^ 64) : Bounded 14 (Float.ofScientific n false 0) := by
  unfold Float.ofScientific
  split
  · have one : Bounded (-52) (Float.ofBits 0x3FF0000000000000) := by decide +kernel
    exact (bounded_toFloat _).mul one (by decide) (by decide) (by decide)
  · exact within_pack (within_ofScientific word) (by decide) (by decide)

end DesktopShell.Binary64
