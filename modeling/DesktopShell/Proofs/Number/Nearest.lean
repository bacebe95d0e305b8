import DesktopShell.Proofs.Number.Rounding

/-!
# The float nearest to a number

What is rounded in a binary place and packed is the float nearest to the number, or no
finite float if the number is out of range (`Rounded.rounds`): packing loses nothing of a
mantissa that fits its place (`unpack_pack`). The opposite of a number is rounded to the
opposite float (`Rounds.neg`).
-/
namespace DesktopShell.Binary64
open Float.Model Float.Model.UnpackedFloat

/-- The number that an unpacked float is, where what is not a finite number counts as zero. -/
def value : UnpackedFloat → ℚ
  | .finite sign mantissa exponent _ => sign.apply mantissa * 2 ^ exponent
  | _ => 0

def mantissaOf : UnpackedFloat → ℕ
  | .finite _ mantissa _ _ => mantissa
  | _ => 0

/-- The number that a float is. -/
def toRat (x : Float) : ℚ := value x.toModel.unpack

/-- A float is the nearest one to a number, and of two nearest ones it is that with an even mantissa. -/
structure Nearest (v : ℚ) (x : Float) : Prop where
  finite : x.isFinite = true
  least : ∀ y : Float, y.isFinite = true → |toRat x - v| ≤ |toRat y - v|
  even : ∀ y : Float, y.isFinite = true → |toRat x - v| = |toRat y - v| → toRat y = toRat x ∨
    Even (mantissaOf x.toModel.unpack)

/-- A float is a number rounded, where numbers out of range are rounded to what is not finite. -/
structure Rounds (v : ℚ) (x : Float) : Prop where
  nearest : InRange v → Nearest v x
  beyond : ¬ InRange v → x.isFinite = false

theorem Rounds.isFinite_iff {v : ℚ} {x : Float} (rounds : Rounds v x) : x.isFinite = true ↔ InRange v := by
  constructor
  · intro finite
    by_contra outside
    cases finite.symm.trans (rounds.beyond outside)
  · exact fun inside => (rounds.nearest inside).finite

private theorem finite_congr {sign : Sign} {m n : ℕ} {e f : ℤ} {positive : 0 < m} {positive' : 0 < n}
    (mantissas : m = n) (exponents : e = f) : UnpackedFloat.finite sign m e positive = .finite sign n f positive' := by
  subst mantissas exponents
  rfl

theorem unpack_pack {sign : Sign} {mantissa : ℕ} {exponent : ℤ} {positive : 0 < mantissa}
    (canonical : Canonical mantissa exponent) (high : exponent ≤ 971) :
    (Float.Model.pack (.finite sign mantissa exponent positive)).unpack = .finite sign mantissa exponent positive := by
  have bias : (Format.exponentBias Format.binary64 : ℤ) = 1023 := by decide
  obtain ⟨short, place, normal⟩ := canonical
  change UnpackedFloat.unpack Format.binary64 (UnpackedFloat.pack Format.binary64 _) = _
  simp only [UnpackedFloat.pack, bias]
  rw [if_neg (by omega)]
  by_cases full : mantissa.log2 = 52
  · have least : 2 ^ 52 ≤ mantissa := full ▸ Nat.log2_self_le positive.ne'
    rw [if_pos (by rw [full]; rfl)]
    have biased : ((exponent + 1023 + (52 : ℕ)).toNat : ℤ) = exponent + 1075 := by omega
    generalize (exponent + 1023 + (52 : ℕ)).toNat = n at biased
    have same : (BitVec.ofNat 11 n).toNat = n := by
      rw [BitVec.toNat_ofNat]
      omega
    have notLast : BitVec.ofNat 11 n ≠ -1#11 := by
      intro last
      have := congrArg BitVec.toNat last
      simp at this
      omega
    have notFirst : BitVec.ofNat 11 n ≠ 0#11 := by
      intro first
      have := congrArg BitVec.toNat first
      simp at this
      omega
    simp only [UnpackedFloat.unpack, unpackExponent_packComponents, unpackMantissa_packComponents,
      unpackSign_packComponents, Sign.ofBitVec_toBitVec, if_neg notLast, if_neg notFirst, bias, same]
    refine finite_congr ?_ (by omega)
    have low := (BitVec.ofNat 52 mantissa).isLt
    simp only [BitVec.toNat_append, BitVec.toNat_ofNat] at low ⊢
    rw [← Nat.shiftLeft_add_eq_or_of_lt low]
    omega
  · have bits : mantissa.log2 ≤ 52 := log2_le short
    have small : mantissa < 2 ^ 52 := (Nat.log2_lt positive.ne').mp (by omega)
    have same : (BitVec.ofNat 52 mantissa).toNat = mantissa := by rw [BitVec.toNat_ofNat, Nat.mod_eq_of_lt small]
    have nonzero : BitVec.ofNat 52 mantissa ≠ 0#52 := by
      intro zero
      have count := congrArg BitVec.toNat zero
      rw [same, BitVec.toNat_zero] at count
      omega
    have lowest : exponent = -1074 := normal.resolve_left (by omega)
    rw [if_neg (by simp only [Format.mantissaBits]; omega)]
    simp only [UnpackedFloat.unpack, unpackExponent_packComponents, unpackMantissa_packComponents,
      unpackSign_packComponents, Sign.ofBitVec_toBitVec, if_neg (by decide : (0#11 : BitVec 11) ≠ -1#11), ↓reduceIte,
      dif_neg nonzero, bias]
    exact finite_congr same lowest.symm

theorem unpack_pack_zero (sign : Sign) : (Float.Model.pack (.zero sign)).unpack = .zero sign := unpack_packedZero

theorem unpack_pack_infinity (sign : Sign) : (Float.Model.pack (.infinity sign)).unpack = .infinity sign := by
  cases sign <;> rfl

/-- A number in a place above all others is packed as an infinity. -/
theorem pack_of_large {sign : Sign} {mantissa : ℕ} {exponent : ℤ} {positive : 0 < mantissa} (large : 972 ≤ exponent) :
    Float.Model.pack (.finite sign mantissa exponent positive) = Float.Model.pack (.infinity sign) := by
  have bias : (Format.exponentBias Format.binary64 : ℤ) = 1023 := by decide
  simp only [Float.Model.pack, UnpackedFloat.pack, bias]
  congr 2
  exact if_pos (by omega)

private theorem isFinite_eq (x : Float) : x.isFinite = x.toModel.unpack.isFinite := rfl

/-- The number of a finite float has a mantissa of at most 53 bits. -/
theorem exists_toRat {x : Float} (finite : x.isFinite = true) :
    ∃ k f : ℤ, toRat x = k * 2 ^ f ∧ |k| < 2 ^ 53 ∧ -1074 ≤ f := by
  rw [isFinite_eq] at finite
  unfold toRat
  cases unpacked : x.toModel.unpack with
  | infinity sign => simp [unpacked, UnpackedFloat.isFinite] at finite
  | notANumber => simp [unpacked, UnpackedFloat.isFinite] at finite
  | zero sign => exact ⟨0, 0, by simp [value], by decide, by decide⟩
  | finite sign mantissa exponent positive =>
    obtain ⟨canonical, -⟩ := canonical_unpack unpacked
    refine ⟨sign.apply mantissa, exponent, rfl, ?_, canonical.place⟩
    have short := canonical.short
    cases sign <;> simp [Sign.apply] <;> exact_mod_cast short

section
variable {v : ℚ} {mantissa : ℕ} {place : ℤ}

theorem Rounded.canonical (rounded : Rounded v mantissa place) (short : mantissa < 2 ^ 53) :
    Canonical mantissa place := by
  refine ⟨short, rounded.low, or_iff_not_imp_right.mpr fun higher => ?_⟩
  have reach := rounded.reach.resolve_left higher
  have unit := unit_pos place
  have large : (2 : ℚ) ^ 52 ≤ v / 2 ^ place := (le_div_iff₀ unit).mpr reach
  have near := (abs_le.mp rounded.nearest.near).1
  by_contra less
  have less' : (mantissa : ℚ) + 1 ≤ 2 ^ 52 := by exact_mod_cast not_le.mp less
  linarith

private theorem Rounded.nearest_float (rounded : Rounded v mantissa place) {x : Float} (finite : x.isFinite = true)
    (same : toRat x = mantissa * 2 ^ place) (even : Even mantissa → Even (mantissaOf x.toModel.unpack)) :
    Nearest v x := by
  have least (y : Float) (finite : y.isFinite = true) : |toRat x - v| ≤ |toRat y - v| ∧
      (|toRat x - v| = |toRat y - v| → toRat y = toRat x ∨ Even mantissa) := by
    obtain ⟨k, f, number, short, low⟩ := exists_toRat finite
    rw [number, same]
    exact rounded.least (abs_lt.mp short).2 low
  exact ⟨finite, fun y finite => (least y finite).1, fun y finite tie => ((least y finite).2 tie).imp_right even⟩

/-- A rounded number in range is packed without a loss. -/
private theorem unpack_pack_carried (rounded : Rounded v mantissa place)
    (inside : place < 971 ∨ place = 971 ∧ mantissa < 2 ^ 53) :
    (Float.Model.pack (carried mantissa place)).unpack = carried mantissa place := by
  unfold carried
  split
  · exact unpack_pack_zero _
  · split
    · rename_i short
      exact unpack_pack (rounded.canonical short) (by omega)
    · exact unpack_pack ⟨by decide, by have := rounded.low; omega, .inl (le_refl _)⟩ (by omega)

private theorem pack_carried_of_large (rounded : Rounded v mantissa place)
    (outside : ¬ (place < 971 ∨ place = 971 ∧ mantissa < 2 ^ 53)) :
    Float.Model.pack (carried mantissa place) = Float.Model.pack (.infinity .positive) := by
  unfold carried
  split
  · rename_i zero
    rcases (rounded.canonical (zero ▸ by decide)).normal with large | lowest
    · exact absurd large (zero ▸ by decide)
    · omega
  · split
    · exact pack_of_large (by omega)
    · exact pack_of_large (by omega)

private theorem isFinite_carried : (carried mantissa place).isFinite = true := by
  unfold carried
  split
  · rfl
  · split <;> rfl

private theorem value_carried (short : mantissa ≤ 2 ^ 53) : value (carried mantissa place) = mantissa * 2 ^ place := by
  unfold carried
  split
  · rename_i zero
    simp [zero, value]
  · split
    · rfl
    · have long : mantissa = 2 ^ 53 := by omega
      have next : (2 : ℚ) ^ (place + 1) = 2 ^ place * 2 := zpow_add_one₀ two_ne_zero place
      simp only [value, Sign.apply, long, next]
      push_cast
      ring

private theorem even_carried (even : Even mantissa) : Even (mantissaOf (carried mantissa place)) := by
  unfold carried
  split
  · exact Even.zero
  · split
    · exact even
    · exact ⟨2 ^ 51, rfl⟩

/-- The float of a rounded number is the number rounded. -/
theorem Rounded.rounds (rounded : Rounded v mantissa place) (nonneg : 0 ≤ v) :
    Rounds v (Float.ofModel (Float.Model.pack (carried mantissa place))) := by
  constructor
  · intro inside
    have unpacked := unpack_pack_carried rounded ((rounded.inRange_iff nonneg).mp inside)
    refine rounded.nearest_float ?_ ?_ ?_
    · exact (congrArg UnpackedFloat.isFinite unpacked).trans isFinite_carried
    · exact (congrArg value unpacked).trans (value_carried rounded.short)
    · intro even
      exact (congrArg mantissaOf unpacked).symm ▸ even_carried even
  · intro outside
    rw [pack_carried_of_large rounded (mt (rounded.inRange_iff nonneg).mpr outside)]
    exact congrArg UnpackedFloat.isFinite (unpack_pack_infinity .positive)

/-- A number of at most half the lowest place is rounded to zero. -/
theorem rounds_zero (nonneg : 0 ≤ v) (tiny : v ≤ 2 ^ (-1075 : ℤ)) :
    Rounds v (Float.ofModel (Float.Model.pack (.zero .positive))) := by
  have half : v / 2 ^ (-1074 : ℤ) ≤ 1 / 2 := by
    have twice : (2 : ℚ) ^ (-1074 : ℤ) = 2 * 2 ^ (-1075 : ℤ) := zpow_one_add₀ two_ne_zero (-1075)
    rw [div_le_iff₀ (unit_pos _), twice]
    generalize (2 : ℚ) ^ (-1075 : ℤ) = unit at *
    linarith
  have count : 0 ≤ v / 2 ^ (-1074 : ℤ) := div_nonneg nonneg (unit_pos _).le
  have nearest : NearestNat (v / 2 ^ (-1074 : ℤ)) 0 := by
    refine ⟨?_, fun _ => Even.zero⟩
    rw [Nat.cast_zero, zero_sub, abs_neg, abs_of_nonneg count]
    exact half
  exact Rounded.rounds ⟨le_refl _, .inl rfl, by decide, nearest⟩ nonneg

theorem rounds_infinity (beyond : ¬ InRange v) : Rounds v (Float.ofModel (Float.Model.pack (.infinity .positive))) :=
  ⟨fun inside => absurd inside beyond, fun _ => congrArg UnpackedFloat.isFinite (unpack_pack_infinity .positive)⟩

end

private theorem unpack_neg (x : Float) : (-x).toModel.unpack = x.toModel.unpack.neg := by
  have packed : (-x).toModel = Float.Model.pack x.toModel.unpack.neg := rfl
  rw [packed]
  cases unpacked : x.toModel.unpack with
  | infinity sign => exact unpack_pack_infinity _
  | notANumber => exact unpack_packedNaN
  | zero sign => exact unpack_pack_zero _
  | finite sign mantissa exponent positive =>
    obtain ⟨canonical, high⟩ := canonical_unpack unpacked
    exact unpack_pack canonical high

theorem isFinite_neg (x : Float) : (-x).isFinite = x.isFinite := by
  rw [isFinite_eq, isFinite_eq, unpack_neg]
  cases x.toModel.unpack <;> rfl

theorem toRat_neg (x : Float) : toRat (-x) = -toRat x := by
  rw [toRat, toRat, unpack_neg]
  cases x.toModel.unpack with
  | finite sign mantissa exponent positive =>
    have opposite : (-sign).apply mantissa = -sign.apply mantissa := by
      cases sign with
      | positive => rfl
      | negative => exact (neg_neg _).symm
    simp only [UnpackedFloat.neg, value, opposite, Int.cast_neg, neg_mul]
  | _ => simp [UnpackedFloat.neg, value]

theorem inRange_neg {v : ℚ} : InRange (-v) ↔ InRange v := by rw [InRange, InRange, abs_neg]

theorem Nearest.neg {v : ℚ} {x : Float} (nearest : Nearest v x) : Nearest (-v) (-x) := by
  have opposite (y : Float) : |toRat y - -v| = |toRat (-y) - v| := by
    rw [toRat_neg, ← abs_neg]
    congr 1
    ring
  have same : |toRat (-x) - -v| = |toRat x - v| := by
    rw [toRat_neg, ← abs_neg]
    congr 1
    ring
  refine ⟨by rw [isFinite_neg, nearest.finite], ?_, ?_⟩
  · intro y finite
    rw [same, opposite y]
    exact nearest.least (-y) (by rw [isFinite_neg, finite])
  · intro y finite tie
    rw [same, opposite y] at tie
    rcases nearest.even (-y) (by rw [isFinite_neg, finite]) tie with equal | even
    · rw [toRat_neg] at equal
      exact .inl (by rw [toRat_neg, ← equal, neg_neg])
    · refine .inr ?_
      rw [unpack_neg]
      cases unpacked : x.toModel.unpack <;> simp_all [UnpackedFloat.neg, mantissaOf]

theorem Rounds.neg {v : ℚ} {x : Float} (rounds : Rounds v x) : Rounds (-v) (-x) := by
  refine ⟨fun inside => (rounds.nearest (inRange_neg.mp inside)).neg, fun outside => ?_⟩
  rw [isFinite_neg]
  exact rounds.beyond (mt inRange_neg.mpr outside)

end DesktopShell.Binary64
