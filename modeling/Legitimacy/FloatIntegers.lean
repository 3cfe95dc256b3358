import Legitimacy.FloatGrowth

namespace FloatOrder

open Float.Model (UnpackedFloat totalExponent)
open Float.Model.UnpackedFloat

section

def Unsigned (number : UnpackedFloat) : Prop := signOf number ≠ some .negative

theorem signOf_roundWithAccuracy {sign : Sign} {mantissa : Nat} {exponent : Int} {accuracy : Accuracy} :
    signOf (roundWithAccuracy .binary64 sign mantissa exponent accuracy) = some sign := by
  unfold roundWithAccuracy
  dsimp only
  split <;> rfl

theorem Unsigned.unpack_pack {number : UnpackedFloat} (unsigned : Unsigned number) : Unsigned (unpack .binary64 (pack .binary64 number)) := by
  intro negative
  rcases signOf_unpack_pack number with none | same
  · rw [none] at negative
    cases negative
  · exact unsigned (same ▸ negative)

theorem signOf_mul (left right : UnpackedFloat) : signOf (mul .binary64 left right) = none ∨
    ∃ sign other, signOf left = some sign ∧ signOf right = some other ∧ signOf (mul .binary64 left right) = some (sign * other) := by
  cases left with
  | finite => cases right with
    | finite => exact .inr ⟨_, _, rfl, rfl, signOf_roundWithAccuracy⟩
    | _ => simp [mul, signOf]
  | _ => cases right <;> simp [mul, signOf]

theorem Unsigned.mul {left right : UnpackedFloat} (isLeft : Unsigned left) (isRight : Unsigned right) : Unsigned (mul .binary64 left right) := by
  intro negative
  rcases signOf_mul left right with none | ⟨sign, other, atLeft, atRight, product⟩
  · rw [none] at negative
    cases negative
  · have opposite : sign * other = .negative := Option.some.inj (product.symm.trans negative)
    cases sign with
    | negative => exact isLeft atLeft
    | positive => cases other with
      | negative => exact isRight atRight
      | positive => cases opposite

theorem Unsigned.not_lt_zero {value : Float} (unsigned : Unsigned value.toModel.unpack) : ¬value < 0 := by
  intro below
  change decide (value.toModel < (0 : Float).toModel) = true at below
  rw [decide_eq_true_iff] at below
  change value.toModel.unpack.lt (.zero .positive) = true at below
  unfold Unsigned at unsigned
  cases form : value.toModel.unpack with
  | notANumber => simp [form, UnpackedFloat.lt, UnpackedFloat.compare] at below
  | infinity sign => cases sign <;> simp_all [signOf, UnpackedFloat.lt, UnpackedFloat.compare]
  | zero sign => simp [form, UnpackedFloat.lt, UnpackedFloat.compare] at below
  | finite sign mantissa exponent positive => cases sign <;> simp_all [signOf, UnpackedFloat.lt, UnpackedFloat.compare]

theorem unsigned_abs (value : Float) : Unsigned value.abs.toModel.unpack := by
  refine Unsigned.unpack_pack ?_
  change signOf (abs value.toModel.unpack) ≠ _
  cases value.toModel.unpack <;> simp [Float.Model.UnpackedFloat.abs, signOf]

theorem unsigned_ofNat (count : Nat) : Unsigned (Float.ofNat count).toModel.unpack := by
  by_cases small : count < 2 ^ 53
  · rcases Nat.eq_zero_or_pos count with rfl | positive
    · rw [ofNat_zero]
      simp [Unsigned, signOf]
    · obtain ⟨mantissa, exponent, some, form, -⟩ := ofNat_normal positive (by omega : count < 2 ^ 64)
      rw [form]
      simp [Unsigned, signOf]
  · rw [ofNat_large small]
    refine Unsigned.unpack_pack ?_
    unfold ofScientific
    split_ifs
    · simp [Unsigned, signOf]
    · simp [Unsigned, signOf]
    · simp [Unsigned, signOf]
    · refine Unsigned.mul ?_ ?_ <;> simp [Unsigned, signOf]
    · omega

end

section

variable {count : Nat}

theorem IsCount.unpack_pack {number : UnpackedFloat} (counts : IsCount number count) :
    IsCount (unpack .binary64 (pack .binary64 number)) count := by
  rw [counts.normal.unpack_pack (by decide) (by decide)]
  exact counts

theorem IsCount.unique {first second : UnpackedFloat} (isFirst : IsCount first count) (isSecond : IsCount second count) : first = second := by
  obtain ⟨bits, few, positive, rfl, above, below⟩ := isFirst
  obtain ⟨others, small, some, rfl, least, most⟩ := isSecond
  have same : bits = others := by
    have grows : ∀ less more : Nat, less < more → more ≤ 52 → count * 2 ^ (52 - less) < 2 ^ 53 → ¬2 ^ 52 ≤ count * 2 ^ (52 - more) := by
      intro less more apart bounded under full
      have doubled : 2 * 2 ^ (52 - more) ≤ 2 ^ (52 - less) := by
        rw [← Nat.pow_succ']
        exact Nat.pow_le_pow_right (by decide) (by omega)
      have := Nat.mul_le_mul_left count doubled
      rw [Nat.mul_left_comm] at this
      omega
    rcases Nat.lt_trichotomy bits others with fewer | same | more
    · exact absurd least (grows bits others fewer small below)
    · exact same
    · exact absurd above (grows others bits more few most)
  subst same
  rfl

theorem IsCount.mul_one {number : UnpackedFloat} (counts : IsCount number count) :
    IsCount (mul .binary64 number (.finite .positive (2 ^ 52) (-52) (by decide))) count := by
  obtain ⟨bits, few, positive, rfl, above, below⟩ := counts
  obtain ⟨some, rounded⟩ := @roundWithAccuracy_truncates 51 ((bits : Int) - 52 + -52) _ 0 above below (by decide) (by omega)
  refine ⟨bits, few, some, ?_, above, below⟩
  have exponent : (bits : Int) - 52 + -52 + (((51 : Nat) : Int) + 1) = bits - 52 := by omega
  simp only [exponent, Nat.add_zero] at rounded
  exact rounded

theorem isCount_ofNat (positive : 0 < count) (small : count < 2 ^ 53) : IsCount (Float.ofNat count).toModel.unpack count := by
  rw [ofNat_small small, unpack_mul, unpack_one, unpack_toFloat]
  exact (isCount_ofUInt64 positive small).unpack_pack.mul_one.unpack_pack

theorem unpack_ofNat_one : (Float.ofNat 1).toModel.unpack = .finite .positive (2 ^ 52) (-52) (by decide) := by
  exact (isCount_ofNat (by decide) (by decide)).unique ⟨0, by decide, by decide, rfl, by decide, by decide⟩

theorem IsCount.div_one {number : UnpackedFloat} (counts : IsCount number count) :
    IsCount (div .binary64 number (.finite .positive (2 ^ 52) (-52) (by decide))) count := by
  obtain ⟨bits, few, positive, rfl, above, below⟩ := counts
  obtain ⟨some, rounded⟩ := @roundWithAccuracy_truncates 0 ((bits : Int) - 53) _ 0 above below (by decide) (by omega)
  refine ⟨bits, few, some, ?_, above, below⟩
  have target : Float.Model.Format.binary64.targetExponent (totalExponent (count * 2 ^ (52 - bits)) ((bits : Int) - 52) -
      totalExponent (2 ^ 52) (-52)) = (bits : Int) - 53 := by
    unfold totalExponent
    rw [log2_eq above below, @log2_eq _ 52 le_rfl (by decide), targetExponent_eq (by omega)]
    omega
  have least : min ((bits : Int) - 52 - -52) ((bits : Int) - 53) = bits - 53 := by omega
  have shift : ((bits : Int) - 52 - -52 - (bits - 53)).toNat = 53 := by omega
  have core : divCore .binary64 (count * 2 ^ (52 - bits)) ((bits : Int) - 52) (2 ^ 52) (-52) =
      (count * 2 ^ (52 - bits) * 2 ^ (0 + 1) + 0, (bits : Int) - 53, .exact) := by
    unfold divCore
    rw [target, least]
    dsimp only
    rw [shift, Nat.shiftLeft_eq]
    have whole : count * 2 ^ (52 - bits) * 2 ^ 53 = 2 ^ 52 * (count * 2 ^ (52 - bits) * 2) := by
      generalize count * 2 ^ (52 - bits) = scaled
      omega
    rw [whole, Nat.mul_div_cancel_left _ (by decide), Nat.mul_mod_right]
    rfl
  have exponent : (bits : Int) - 53 + (((0 : Nat) : Int) + 1) = bits - 52 := by omega
  simp only [exponent] at rounded
  refine Eq.trans ?_ rounded
  unfold div
  dsimp only
  rw [core]
  rfl

theorem unpack_sub (left right : Float) : (left - right).toModel.unpack =
    unpack .binary64 (pack .binary64 (sub .binary64 left.toModel.unpack right.toModel.unpack)) := rfl

theorem IsCount.abs_eq {value : Float} (counts : IsCount value.toModel.unpack count) : IsCount value.abs.toModel.unpack count := by
  obtain ⟨bits, few, positive, form, above, below⟩ := counts
  have same : value.abs.toModel.unpack = unpack .binary64 (pack .binary64 value.toModel.unpack) := by
    change unpack .binary64 (pack .binary64 (abs value.toModel.unpack)) = _
    rw [form]
    rfl
  rw [same]
  exact IsCount.unpack_pack ⟨bits, few, positive, form, above, below⟩

theorem IsCount.difference {left right : Float} (isLeft : IsCount left.toModel.unpack count) (isRight : IsCount right.toModel.unpack count) :
    (left - right).toModel.unpack = .zero .positive := by
  obtain ⟨bits, few, positive, form, -, -⟩ := isLeft.unique isRight ▸ isLeft
  have zero : sub .binary64 left.toModel.unpack right.toModel.unpack = .zero .positive := by
    rw [isLeft.unique isRight, form]
    unfold sub
    simp only [Sign.apply, Int.sub_self]
    rfl
  rw [unpack_sub, zero]
  rfl

end

section

variable {number factor : UnpackedFloat} {lower upper least most : Int}

theorem mul_normal (normal : Normal number lower upper) (scales : Normal factor least most) (low : -1126 ≤ lower + least) :
    Normal (mul .binary64 number factor) (lower + least + 52) (upper + most + 54) := by
  obtain ⟨mantissa, exponent, positive, rfl, above, below, atLeast, atMost⟩ := normal
  obtain ⟨other, power, otherPositive, rfl, otherAbove, otherBelow, otherLeast, otherMost⟩ := scales
  have full : 2 ^ (52 + 52) ≤ mantissa * other := by
    rw [Nat.pow_add]
    exact Nat.mul_le_mul above otherAbove
  have small : mantissa * other < 2 ^ (52 + 53 + 1) := by
    have product : 2 ^ (52 + 53 + 1) = 2 ^ 53 * 2 ^ 53 := by rw [← Nat.pow_add]
    rw [product]
    exact Nat.mul_lt_mul_of_lt_of_le below otherBelow.le (Nat.two_pow_pos _)
  change Normal (roundWithAccuracy .binary64 .positive (mantissa * other) (exponent + power) .exact) _ _
  by_cases wide : 2 ^ (52 + 53) ≤ mantissa * other
  · have rounded := @roundWithAccuracy_normal _ 53 (exponent + power) .exact wide small (by push_cast; omega)
    exact rounded.mono (by push_cast; omega) (by push_cast; omega)
  · have rounded := @roundWithAccuracy_normal _ 52 (exponent + power) .exact full (Nat.lt_of_not_le wide) (by push_cast; omega)
    exact rounded.mono (by push_cast; omega) (by push_cast; omega)

theorem add_normal (normal : Normal number lower upper) (added : Normal factor least most) (low : -1074 ≤ lower) (lowest : -1074 ≤ least) :
    Normal (add .binary64 number factor) (min lower least) (max upper most + 2) := by
  obtain ⟨mantissa, exponent, positive, rfl, above, below, atLeast, atMost⟩ := normal
  obtain ⟨other, power, otherPositive, rfl, otherAbove, otherBelow, otherLeast, otherMost⟩ := added
  rw [add_positive]
  exact (round_add_normal below otherAbove otherBelow (by omega) (by omega)).mono (by omega) (by omega)

end

section

variable {mantissa : Nat} {exponent : Int}

theorem targetExponent_max (total : Int) : Float.Model.Format.binary64.targetExponent total = max (total - 53) (-1074) := by
  have least : Float.Model.Format.binary64.minExponent = -1074 := by decide
  have bits : (Float.Model.Format.binary64.mantissaBits : Int) = 53 := by decide
  unfold Float.Model.Format.targetExponent
  rw [least, bits]

theorem shiftToTargetExponent_exponent {power : Int} (small : mantissa ≤ 2 ^ 53) (low : -1074 ≤ power) :
    (shiftToTargetExponent .binary64 mantissa power .exact).2 ≤ power + 1 ∧
      (mantissa < 2 ^ 53 → (shiftToTargetExponent .binary64 mantissa power .exact).2 = power) := by
  have size : mantissa.log2 ≤ 53 := by
    by_contra large
    have := Nat.pow_le_pow_right (by decide : 0 < 2) (Nat.lt_of_not_le large)
    rcases Nat.eq_zero_or_pos mantissa with rfl | some
    · exact large (by decide)
    · have := Nat.log2_self_le some.ne'
      omega
  have few : mantissa < 2 ^ 53 → mantissa.log2 ≤ 52 := by
    intro below
    rcases Nat.eq_zero_or_pos mantissa with rfl | some
    · decide
    · exact Nat.lt_succ_iff.1 ((Nat.log2_lt some.ne').2 below)
  unfold shiftToTargetExponent shiftToExponent totalExponent
  dsimp only
  rw [targetExponent_max]
  exact ⟨by omega, fun below => by have := few below; omega⟩

theorem log2_shifted (some : mantissa ≠ 0) (shift : Nat) : (mantissa * 2 ^ shift).log2 = mantissa.log2 + shift := by
  refine log2_eq ?_ ?_
  · rw [Nat.pow_add]
    exact Nat.mul_le_mul_right _ (Nat.log2_self_le some)
  · rw [Nat.add_right_comm, Nat.pow_add]
    exact Nat.mul_lt_mul_of_pos_right Nat.lt_log2_self (Nat.two_pow_pos _)

/-- Rounding first moves a number to its target exponent, where the mantissa has at most 53 bits. -/
theorem exists_shifted (some : mantissa ≠ 0) {target : Int}
    (isTarget : Float.Model.Format.binary64.targetExponent (totalExponent mantissa exponent) = target) :
    ∃ extended : ExtendedMantissa, shiftToTargetExponent .binary64 (decreaseExponent mantissa exponent target).1
        (decreaseExponent mantissa exponent target).2 .exact = (extended, target) ∧
      extended.mantissa < 2 ^ 53 ∧
      (exponent ≤ target → extended = (⟨mantissa, false, false⟩ : ExtendedMantissa) >>> (target - exponent).toNat) := by
  have bound : exponent + mantissa.log2 - 52 ≤ target := by
    rw [← isTarget, targetExponent_max]
    unfold totalExponent
    omega
  have same : Float.Model.Format.binary64.targetExponent (totalExponent (decreaseExponent mantissa exponent target).1
      (decreaseExponent mantissa exponent target).2) = target := by
    rw [← isTarget]
    unfold decreaseExponent totalExponent
    dsimp only
    rw [Nat.shiftLeft_eq, log2_shifted some]
    push_cast
    congr 1
    omega
  refine ⟨(⟨mantissa * 2 ^ (exponent - target).toNat, false, false⟩ : ExtendedMantissa) >>> (target - exponent).toNat, ?_, ?_, fun below => ?_⟩
  · unfold shiftToTargetExponent shiftToExponent
    rw [same]
    unfold decreaseExponent
    dsimp only
    have shift : (target - (exponent - ((exponent - target).toNat : Int))).toNat = (target - exponent).toNat := by omega
    rw [shift, Nat.shiftLeft_eq]
    exact Prod.ext rfl (by dsimp only; omega)
  · rw [repeat_shiftRightOne, Nat.div_lt_iff_lt_mul (Nat.two_pow_pos _), ← Nat.pow_add]
    refine Nat.lt_of_lt_of_le (Nat.mul_lt_mul_of_pos_right Nat.lt_log2_self (Nat.two_pow_pos _)) ?_
    rw [← Nat.pow_add]
    exact Nat.pow_le_pow_right (by decide) (by omega)
  · have none : (exponent - target).toNat = 0 := by omega
    rw [none, Nat.pow_zero, Nat.mul_one]

theorem roundedMantissa_exact {kept shift : Nat} : ((⟨kept * 2 ^ shift, false, false⟩ : ExtendedMantissa) >>> shift).roundedMantissa = kept := by
  have quotient : ((⟨kept * 2 ^ shift, false, false⟩ : ExtendedMantissa) >>> shift).mantissa = kept := by
    rw [repeat_shiftRightOne]
    exact Nat.mul_div_cancel _ (Nat.two_pow_pos _)
  have even : ((⟨kept * 2 ^ shift, false, false⟩ : ExtendedMantissa) >>> shift).roundBit = false := by
    cases shift with
    | zero => rfl
    | succ shift =>
      rw [roundBit_shifted, Nat.pow_succ, ← Nat.mul_assoc, Nat.mul_right_comm, Nat.mul_div_cancel _ (Nat.two_pow_pos _), Nat.mul_mod_left]
      rfl
  generalize (⟨kept * 2 ^ shift, false, false⟩ : ExtendedMantissa) >>> shift = extended at quotient even
  obtain ⟨mantissa, roundBit, stickyBit⟩ := extended
  dsimp only at quotient even
  rw [quotient, even]
  cases stickyBit <;> rfl

/-- What does not exceed the largest number of the format is rounded to one of its numbers. -/
theorem round_isFinite {sign : Sign} {bits : Nat} (some : mantissa ≠ 0) (within : mantissa ≤ (2 ^ 53 - 1) * 2 ^ bits) (high : exponent + bits ≤ 971) :
    (unpack .binary64 (pack .binary64 (round .binary64 sign mantissa exponent))).isFinite = true := by
  have size : mantissa.log2 ≤ 52 + bits := by
    have below : mantissa < 2 ^ (53 + bits) := by
      rw [Nat.pow_add]
      exact within.trans_lt (Nat.mul_lt_mul_of_pos_right (by decide) (Nat.two_pow_pos _))
    have := (Nat.log2_lt some).2 below
    omega
  obtain ⟨target, isTarget⟩ : ∃ target, Float.Model.Format.binary64.targetExponent (totalExponent mantissa exponent) = target := ⟨_, rfl⟩
  obtain ⟨extended, shifted, small, exactly⟩ := exists_shifted some isTarget
  have formula : target = max (exponent + mantissa.log2 + 1 - 53) (-1074) := by
    rw [← isTarget, targetExponent_max]
    unfold totalExponent
    omega
  obtain ⟨-, carried⟩ := roundedMantissa_bounds extended
  -- at the largest exponent there is no carry
  have room : target = 971 → extended.roundedMantissa < 2 ^ 53 := by
    intro top
    have shift : (target - exponent).toNat = bits := by omega
    have kept := exactly (by omega)
    rw [shift] at kept
    have quotient : extended.mantissa = mantissa / 2 ^ bits := by
      rw [kept]
      exact repeat_shiftRightOne bits _
    by_cases last : mantissa = (2 ^ 53 - 1) * 2 ^ bits
    · rw [kept, last, roundedMantissa_exact]
      decide
    · have less : mantissa / 2 ^ bits < 2 ^ 53 - 1 := by
        rw [Nat.div_lt_iff_lt_mul (Nat.two_pow_pos _)]
        exact Nat.lt_of_le_of_ne within last
      omega
  obtain ⟨moved, still⟩ := @shiftToTargetExponent_exponent extended.roundedMantissa target (by omega) (by omega)
  unfold Float.Model.UnpackedFloat.round roundWithAccuracy
  rw [isTarget]
  dsimp only
  rw [shifted]
  dsimp only
  split
  · exact isFinite_unpack_packComponents (by decide)
  · refine isFinite_unpack_pack ?_
    by_cases top : target = 971
    · rw [still (room top)]
      omega
    · omega

/-- Numbers of opposite signs have a sum in the range. -/
theorem add_opposite_isFinite {value added : Float} (finite : value.isFinite = true) (positive : ¬value ≤ 0) {summand : Nat} {power : Int}
    {some : 0 < summand} (form : added.toModel.unpack = .finite .negative summand power some) : (value + added).isFinite = true := by
  obtain ⟨mantissa, exponent, full, valueForm⟩ := positive_form finite positive
  obtain ⟨below, low, high, -⟩ := canonical_of_unpack valueForm
  obtain ⟨small, lowest, highest, -⟩ := canonical_of_unpack form
  change (value + added).toModel.unpack.isFinite = true
  rw [unpack_add, valueForm, form]
  unfold add decreaseExponent UnpackedFloat.normalize
  simp only [Sign.apply, Nat.shiftLeft_eq]
  obtain ⟨first, isFirst⟩ : ∃ first, mantissa * 2 ^ (exponent - min exponent power).toNat = first := ⟨_, rfl⟩
  obtain ⟨second, isSecond⟩ : ∃ second, summand * 2 ^ (power - min exponent power).toNat = second := ⟨_, rfl⟩
  have firstWithin : first ≤ (2 ^ 53 - 1) * 2 ^ (exponent - min exponent power).toNat :=
    isFirst ▸ Nat.mul_le_mul_right _ (Nat.le_sub_one_of_lt below)
  have secondWithin : second ≤ (2 ^ 53 - 1) * 2 ^ (power - min exponent power).toNat :=
    isSecond ▸ Nat.mul_le_mul_right _ (Nat.le_sub_one_of_lt small)
  rw [isFirst, isSecond]
  split
  · next less =>
    have lower := Int.compare_eq_lt.1 less
    have bounded : (-((first : Int) + -(second : Int))).toNat ≤ second := by omega
    exact round_isFinite (by omega) (bounded.trans secondWithin) (by omega)
  · exact isFinite_unpack_packComponents (by decide)
  · next more =>
    have upper := Int.compare_eq_gt.1 more
    have bounded : ((first : Int) + -(second : Int)).toNat ≤ first := by omega
    exact round_isFinite (by omega) (bounded.trans firstWithin) (by omega)

end

end FloatOrder
