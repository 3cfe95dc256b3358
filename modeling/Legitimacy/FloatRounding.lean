import Legitimacy.FloatOrder
import Mathlib

namespace FloatOrder

open Float.Model (UnpackedFloat totalExponent)
open Float.Model.UnpackedFloat

/-- A number with a full mantissa, its exponent between two bounds. -/
def Normal (number : UnpackedFloat) (lower upper : Int) : Prop :=
  ∃ mantissa exponent, ∃ positive : 0 < mantissa, number = .finite .positive mantissa exponent positive ∧
    2 ^ 52 ≤ mantissa ∧ mantissa < 2 ^ 53 ∧ lower ≤ exponent ∧ exponent ≤ upper

theorem log2_eq {number bits : Nat} (above : 2 ^ bits ≤ number) (below : number < 2 ^ (bits + 1)) : number.log2 = bits := by
  have positive : number ≠ 0 := by
    have := Nat.two_pow_pos bits
    omega
  exact (Nat.log2_eq_iff positive).2 ⟨above, below⟩

theorem targetExponent_eq {total : Int} (large : -1021 ≤ total) : Float.Model.Format.binary64.targetExponent total = total - 53 := by
  have least : Float.Model.Format.binary64.minExponent = -1074 := by decide
  have bits : (Float.Model.Format.binary64.mantissaBits : Int) = 53 := by decide
  unfold Float.Model.Format.targetExponent
  rw [least, bits]
  omega

theorem repeat_shiftRightOne (shift : Nat) (extended : ExtendedMantissa) :
    (extended >>> shift).mantissa = extended.mantissa / 2 ^ shift := by
  change (shift.repeat ExtendedMantissa.shiftRightOne extended).mantissa = _
  induction shift with
  | zero => simp [Nat.repeat]
  | succ shift ih =>
    rw [Nat.repeat, Nat.pow_succ, ← Nat.div_div_eq_div_mul, ← ih]
    rfl

theorem roundedMantissa_bounds (extended : ExtendedMantissa) :
    extended.mantissa ≤ extended.roundedMantissa ∧ extended.roundedMantissa ≤ extended.mantissa + 1 := by
  obtain ⟨mantissa, roundBit, stickyBit⟩ := extended
  cases roundBit <;> cases stickyBit <;>
    simp only [ExtendedMantissa.roundedMantissa, ExtendedMantissa.accuracy, Accuracy.roundToNearestEven] <;> omega

theorem shiftToTargetExponent_full {mantissa bits : Nat} {exponent : Int} {accuracy : Accuracy} (above : 2 ^ (52 + bits) ≤ mantissa)
    (below : mantissa < 2 ^ (52 + bits + 1)) (large : -1074 ≤ exponent + bits) :
    ((shiftToTargetExponent .binary64 mantissa exponent accuracy).1.mantissa = mantissa / 2 ^ bits) ∧
      (shiftToTargetExponent .binary64 mantissa exponent accuracy).2 = exponent + bits := by
  have size := log2_eq above below
  have total : totalExponent mantissa exponent = exponent + bits + 53 := by
    unfold totalExponent
    rw [size]
    push_cast
    omega
  have shift : (exponent + bits - exponent).toNat = bits := by omega
  unfold shiftToTargetExponent shiftToExponent
  rw [total, targetExponent_eq (by omega)]
  simp only [Int.add_sub_cancel, shift, repeat_shiftRightOne, and_true]
  cases accuracy with
  | exact => rfl
  | inexact relative => cases relative <;> rfl

/-- Rounding a mantissa of at least 53 bits gives a full one, one exponent up at most. -/
theorem roundWithAccuracy_normal {mantissa bits : Nat} {exponent : Int} {accuracy : Accuracy} (above : 2 ^ (52 + bits) ≤ mantissa)
    (below : mantissa < 2 ^ (52 + bits + 1)) (large : -1074 ≤ exponent + bits) :
    Normal (roundWithAccuracy .binary64 .positive mantissa exponent accuracy) (exponent + bits) (exponent + bits + 1) := by
  obtain ⟨first, moved⟩ := @shiftToTargetExponent_full _ _ _ accuracy above below large
  unfold roundWithAccuracy
  generalize shiftToTargetExponent .binary64 mantissa exponent accuracy = shifted at first moved
  obtain ⟨extended, atExponent⟩ := shifted
  dsimp only at first moved ⊢
  subst moved
  have least : 2 ^ 52 ≤ extended.mantissa := by
    rw [first, Nat.le_div_iff_mul_le (Nat.two_pow_pos bits), ← Nat.pow_add]
    exact above
  have most : extended.mantissa < 2 ^ 53 := by
    rw [first, Nat.div_lt_iff_lt_mul (Nat.two_pow_pos bits), ← Nat.pow_add, Nat.add_right_comm 52 1 bits]
    exact below
  obtain ⟨lower, upper⟩ := roundedMantissa_bounds extended
  by_cases carried : extended.roundedMantissa = 2 ^ 53
  · -- the carry out of the top bit moves the exponent once more
    obtain ⟨second, movedAgain⟩ := @shiftToTargetExponent_full extended.roundedMantissa 1 (exponent + bits) .exact
      (by rw [carried]) (by rw [carried]; decide) (by push_cast; omega)
    have halved : (shiftToTargetExponent .binary64 extended.roundedMantissa (exponent + bits) .exact).1.mantissa = 2 ^ 52 := by
      have half : extended.roundedMantissa / 2 ^ 1 = 2 ^ 52 := by omega
      exact second.trans half
    refine ⟨2 ^ 52, exponent + bits + 1, by decide, ?_, le_rfl, by decide, by omega, le_rfl⟩
    simp only [halved, movedAgain]
    rfl
  · obtain ⟨second, movedAgain⟩ := @shiftToTargetExponent_full extended.roundedMantissa 0 (exponent + bits) .exact
      (by omega) (by omega) (by push_cast; omega)
    have positive : 0 < extended.roundedMantissa := by omega
    refine ⟨extended.roundedMantissa, exponent + bits, positive, ?_, by omega, by omega, le_rfl, by omega⟩
    simp only [second, movedAgain, Nat.pow_zero, Nat.div_one, Int.natCast_zero, Int.add_zero]
    rw [dif_neg (by omega)]

/-- Packing keeps a full mantissa and its exponent. -/
theorem Normal.unpack_pack {number : UnpackedFloat} {lower upper : Int} (normal : Normal number lower upper) (low : -1074 ≤ lower)
    (high : upper ≤ 971) : unpack .binary64 (pack .binary64 number) = number := by
  obtain ⟨mantissa, exponent, positive, rfl, above, below, atLeast, atMost⟩ := normal
  have bias : Float.Model.Format.binary64.exponentBias = 1023 := by decide
  have size := log2_eq above below
  have biased : (exponent + Float.Model.Format.binary64.exponentBias + (52 : Nat)).toNat = (exponent + 1075).toNat := by
    rw [bias]
    omega
  have field : (BitVec.ofNat 11 (exponent + 1075).toNat).toNat = (exponent + 1075).toNat := by
    rw [BitVec.toNat_ofNat, Nat.mod_eq_of_lt (by omega)]
  have finite : BitVec.ofNat 11 (exponent + 1075).toNat ≠ -1#11 := by
    intro last
    have same := congrArg BitVec.toNat last
    have top : (-1#11 : BitVec 11).toNat = 2047 := by decide
    omega
  have full : BitVec.ofNat 11 (exponent + 1075).toNat ≠ 0#11 := by
    intro none
    have same := congrArg BitVec.toNat none
    rw [field] at same
    change (exponent + 1075).toNat = 0 at same
    omega
  have implicit : (1#1 ++ BitVec.ofNat 52 mantissa).toNat = mantissa := by
    have low := Nat.mod_lt mantissa (Nat.two_pow_pos 52)
    rw [BitVec.toNat_append, BitVec.toNat_ofNat, BitVec.toNat_ofNat, Nat.shiftLeft_eq, Nat.or_comm]
    change mantissa % 2 ^ 52 ||| 2 ^ 52 = mantissa
    rw [Nat.or_two_pow_eq_add_of_lt low]
    omega
  have packed : pack .binary64 (.finite .positive mantissa exponent positive) =
      packComponents .binary64 .positive (BitVec.ofNat 11 (exponent + 1075).toNat) (BitVec.ofNat 52 mantissa) := by
    unfold pack
    dsimp only
    rw [biased, if_neg (by omega), size]
    exact if_pos rfl
  rw [packed]
  unfold unpack
  simp only [unpackMantissa_packComponents, unpackExponent_packComponents, unpackSign_packComponents, if_neg finite, if_neg full]
  congr 1
  rw [field, bias]
  omega

theorem Normal.mono {number : UnpackedFloat} {lower upper least most : Int} (normal : Normal number lower upper) (below : least ≤ lower)
    (above : upper ≤ most) : Normal number least most := by
  obtain ⟨mantissa, exponent, positive, rfl, full, small, atLeast, atMost⟩ := normal
  exact ⟨mantissa, exponent, positive, rfl, full, small, below.trans atLeast, atMost.trans above⟩

theorem Normal.isFinite {number : UnpackedFloat} {lower upper : Int} (normal : Normal number lower upper) : number.isFinite = true := by
  obtain ⟨mantissa, exponent, positive, rfl, -⟩ := normal
  rfl

theorem Normal.not_lt_zero {number : UnpackedFloat} {lower upper : Int} (normal : Normal number lower upper) :
    number.lt (.zero .positive) = false := by
  obtain ⟨mantissa, exponent, positive, rfl, -⟩ := normal
  rfl

theorem Normal.positive {value : Float} {lower upper : Int} (normal : Normal value.toModel.unpack lower upper) :
    value.isFinite = true ∧ ¬value ≤ 0 ∧ value ≤ value := by
  obtain ⟨mantissa, exponent, positive, form, -⟩ := id normal
  refine ⟨normal.isFinite, fun below => ?_, (le_iff value value).2 ⟨_, _, by rw [form]; rfl, by rw [form]; rfl, ?_⟩⟩
  · obtain ⟨first, second, atFirst, atSecond, low⟩ := (le_iff value 0).1 below
    have zero : (0 : Float).toModel.unpack = .zero .positive := rfl
    rw [form] at atFirst
    rw [zero] at atSecond
    cases atFirst
    cases atSecond
    simp [rankLE] at low
  · simp [rankLE]

section

variable {count : Nat}

theorem exists_size (positive : 0 < count) : ∃ bits, 2 ^ bits ≤ count ∧ count < 2 ^ (bits + 1) :=
  ⟨count.log2, Nat.log2_self_le (by omega), Nat.lt_log2_self⟩

theorem mul_one_normal {number : UnpackedFloat} {lower upper : Int} (normal : Normal number lower upper) (low : -1022 ≤ lower) :
    Normal (mul .binary64 number (.finite .positive (2 ^ 52) (-52) (by decide))) lower (upper + 1) := by
  obtain ⟨mantissa, exponent, positive, rfl, above, below, atLeast, atMost⟩ := normal
  have rounded := @roundWithAccuracy_normal (mantissa * 2 ^ 52) 52 (exponent + -52) .exact
    (by rw [Nat.pow_add]; exact Nat.mul_le_mul_right _ above)
    (by rw [Nat.add_right_comm, Nat.pow_add]; exact Nat.mul_lt_mul_of_pos_right below (Nat.two_pow_pos 52)) (by push_cast; omega)
  exact rounded.mono (by push_cast; omega) (by push_cast; omega)

/-- The number of the format that is the given count: a full mantissa, shifted down to it. -/
def IsCount (number : UnpackedFloat) (count : Nat) : Prop :=
  ∃ bits : Nat, bits ≤ 52 ∧ ∃ positive, number = .finite .positive (count * 2 ^ (52 - bits)) ((bits : Int) - 52) positive ∧
    2 ^ 52 ≤ count * 2 ^ (52 - bits) ∧ count * 2 ^ (52 - bits) < 2 ^ 53

theorem IsCount.normal {number : UnpackedFloat} (counts : IsCount number count) : Normal number (-52) 0 := by
  obtain ⟨bits, few, positive, rfl, above, below⟩ := counts
  exact ⟨_, _, positive, rfl, above, below, by omega, by omega⟩

theorem roundWithAccuracy_full {mantissa : Nat} {exponent : Int} (above : 2 ^ 52 ≤ mantissa) (below : mantissa < 2 ^ 53)
    (large : -1074 ≤ exponent) : ∃ positive, roundWithAccuracy .binary64 .positive mantissa exponent .exact =
      .finite .positive mantissa exponent positive := by
  have target : Float.Model.Format.binary64.targetExponent (totalExponent mantissa exponent) = exponent := by
    unfold totalExponent
    rw [log2_eq above below, targetExponent_eq (by omega)]
    omega
  have kept : shiftToTargetExponent .binary64 mantissa exponent .exact = (⟨mantissa, false, false⟩, exponent) := by
    unfold shiftToTargetExponent shiftToExponent
    dsimp only
    rw [target, Int.sub_self, Int.toNat_zero, Int.natCast_zero, Int.add_zero]
    rfl
  have positive : 0 < mantissa := by omega
  have rounded : (⟨mantissa, false, false⟩ : ExtendedMantissa).roundedMantissa = mantissa := rfl
  refine ⟨positive, ?_⟩
  unfold roundWithAccuracy
  rw [kept]
  dsimp only
  rw [rounded, kept]
  exact dif_neg positive.ne'

theorem isCount_ofUInt64 (positive : 0 < count) (small : count < 2 ^ 53) : IsCount (ofUInt64 .binary64 count.toUInt64) count := by
  obtain ⟨bits, above, below⟩ := exists_size positive
  have few : bits ≤ 52 := by
    by_contra more
    have : 2 ^ 53 ≤ 2 ^ bits := Nat.pow_le_pow_right (by decide) (by omega)
    omega
  have same : count.toUInt64.toNat = count := by
    have wide : count < 2 ^ 64 := by omega
    simpa using wide
  have target : Float.Model.Format.binary64.targetExponent (totalExponent count 0) = (bits : Int) - 52 := by
    unfold totalExponent
    rw [log2_eq above below, targetExponent_eq (by omega)]
    omega
  have shift : ((0 : Int) - ((bits : Int) - 52)).toNat = 52 - bits := by omega
  have scaled : 2 ^ 52 ≤ count * 2 ^ (52 - bits) ∧ count * 2 ^ (52 - bits) < 2 ^ 53 := by
    have split : 2 ^ 52 = 2 ^ bits * 2 ^ (52 - bits) := by rw [← Nat.pow_add, Nat.add_sub_cancel' few]
    have next : 2 ^ 53 = 2 ^ (bits + 1) * 2 ^ (52 - bits) := by
      rw [← Nat.pow_add]
      congr 1
      omega
    rw [split, next]
    exact ⟨Nat.mul_le_mul_right _ above, Nat.mul_lt_mul_of_pos_right below (Nat.two_pow_pos _)⟩
  obtain ⟨some, rounded⟩ := @roundWithAccuracy_full _ ((bits : Int) - 52) scaled.1 scaled.2 (by omega)
  refine ⟨bits, few, some, ?_, scaled⟩
  have compared : compare (count : Int) 0 = .gt := Int.compare_eq_gt.2 (by omega)
  have exponent : (0 : Int) - ((52 - bits : Nat) : Int) = bits - 52 := by omega
  rw [← rounded]
  simp only [ofUInt64, ofNat, ofInt, same, Float.Model.UnpackedFloat.normalize, compared, Int.toNat_natCast,
    Float.Model.UnpackedFloat.round, decreaseExponent, target, shift, Nat.shiftLeft_eq, exponent]

theorem ofUInt64_normal (positive : 0 < count) (small : count < 2 ^ 53) :
    Normal (ofUInt64 .binary64 count.toUInt64) (-52) 1 :=
  (isCount_ofUInt64 positive small).normal.mono le_rfl (by decide)

theorem divCore_full {mantissa other : Nat} {exponent power : Int} (above : 2 ^ 52 ≤ mantissa) (below : mantissa < 2 ^ 53)
    (otherAbove : 2 ^ 52 ≤ other) (otherBelow : other < 2 ^ 53) (low : -1021 ≤ exponent - power) :
    ∃ quotient accuracy, divCore .binary64 mantissa exponent other power = (quotient, exponent - power - 53, accuracy) ∧
      2 ^ 52 ≤ quotient ∧ quotient < 2 ^ 54 := by
  have target : Float.Model.Format.binary64.targetExponent (totalExponent mantissa exponent - totalExponent other power) =
      exponent - power - 53 := by
    unfold totalExponent
    rw [log2_eq above below, log2_eq otherAbove otherBelow, targetExponent_eq (by omega)]
    omega
  have least : min (exponent - power) (exponent - power - 53) = exponent - power - 53 := by omega
  have shift : (exponent - power - (exponent - power - 53)).toNat = 53 := by omega
  refine ⟨mantissa <<< 53 / other, accuracyOfFraction (mantissa <<< 53 % other) other, ?_, ?_⟩
  · unfold divCore
    rw [target, least]
    dsimp only
    rw [shift]
  · rw [Nat.shiftLeft_eq, Nat.le_div_iff_mul_le (by omega), Nat.div_lt_iff_lt_mul (by omega)]
    omega

theorem div_normal {number divisor : UnpackedFloat} {lower upper least most : Int} (normal : Normal number lower upper)
    (divides : Normal divisor least most) (low : -1021 ≤ lower - most) :
    Normal (div .binary64 number divisor) (lower - most - 53) (upper - least - 51) := by
  obtain ⟨mantissa, exponent, positive, rfl, above, below, atLeast, atMost⟩ := normal
  obtain ⟨other, power, otherPositive, rfl, otherAbove, otherBelow, otherLeast, otherMost⟩ := divides
  obtain ⟨quotient, accuracy, core, full, small⟩ := @divCore_full _ _ exponent power above below otherAbove otherBelow (by omega)
  have divided : div .binary64 (.finite .positive mantissa exponent positive) (.finite .positive other power otherPositive) =
      roundWithAccuracy .binary64 .positive quotient (exponent - power - 53) accuracy := by
    unfold div
    dsimp only
    rw [core]
    rfl
  rw [divided]
  by_cases wide : 2 ^ 53 ≤ quotient
  · have rounded := @roundWithAccuracy_normal quotient 1 (exponent - power - 53) accuracy wide small (by push_cast; omega)
    exact rounded.mono (by push_cast; omega) (by push_cast; omega)
  · have rounded := @roundWithAccuracy_normal quotient 0 (exponent - power - 53) accuracy full (by omega) (by push_cast; omega)
    exact rounded.mono (by push_cast; omega) (by push_cast; omega)

end

section

theorem unpack_mul (left right : Float) : (left * right).toModel.unpack =
    unpack .binary64 (pack .binary64 (mul .binary64 left.toModel.unpack right.toModel.unpack)) := rfl

theorem unpack_div (left right : Float) : (left / right).toModel.unpack =
    unpack .binary64 (pack .binary64 (div .binary64 left.toModel.unpack right.toModel.unpack)) := rfl

theorem unpack_toFloat (word : UInt64) : word.toFloat.toModel.unpack = unpack .binary64 (pack .binary64 (ofUInt64 .binary64 word)) := rfl

theorem toFloat_normal {count : Nat} (positive : 0 < count) (small : count < 2 ^ 53) : Normal count.toUInt64.toFloat.toModel.unpack (-52) 1 := by
  have word := ofUInt64_normal positive small
  rw [unpack_toFloat, word.unpack_pack (by decide) (by decide)]
  exact word

theorem unpack_one : (Float.ofBits 0x3FF0000000000000).toModel.unpack = .finite .positive (2 ^ 52) (-52) (by decide) := by
  rfl

theorem ofNat_small {count : Nat} (small : count < 2 ^ 53) : Float.ofNat count = count.toUInt64.toFloat * Float.ofBits 0x3FF0000000000000 := by
  change Float.ofScientific count false 0 = _
  unfold Float.ofScientific
  rw [dif_pos ⟨small, by decide⟩]
  dsimp only
  rw [if_neg (by decide)]
  rfl

theorem ofScientific_normal {count : Nat} (large : 2 ^ 53 ≤ count) (small : count < 2 ^ 64) :
    Normal (ofScientific .binary64 count 0) 0 13 := by
  obtain ⟨bits, above, below⟩ := @exists_size count (by omega)
  have many : 53 ≤ bits := by
    by_contra fewer
    have : 2 ^ (bits + 1) ≤ 2 ^ 53 := Nat.pow_le_pow_right (by decide) (by omega)
    omega
  have few : bits < 64 := by
    by_contra more
    have : 2 ^ 64 ≤ 2 ^ bits := Nat.pow_le_pow_right (by decide) (by omega)
    omega
  have unfolded : ofScientific .binary64 count 0 = roundWithAccuracy .binary64 .positive (count <<< 53) (-53) .exact := by
    unfold ofScientific
    have bounded : ¬(0 : Int) < -((2 ^ Float.Model.Format.binary64.exponentBits : Int) + count.log2) := by
      have bits : (2 ^ Float.Model.Format.binary64.exponentBits : Int) = 2048 := by decide
      omega
    rw [dif_neg (by omega), if_neg (by decide), if_neg bounded, if_pos (by decide)]
    have width : Float.Model.Format.binary64.mantissaBits = 53 := rfl
    simp only [mul, width, Int.toNat_zero, Nat.pow_zero, Nat.mul_one, Int.add_zero]
    rfl
  have split : 2 ^ (52 + (bits + 1)) = 2 ^ bits * 2 ^ 53 := by
    rw [← Nat.pow_add]
    congr 1
    omega
  have next : 2 ^ (52 + (bits + 1) + 1) = 2 ^ (bits + 1) * 2 ^ 53 := by
    rw [← Nat.pow_add]
    congr 1
    omega
  have rounded := @roundWithAccuracy_normal (count <<< 53) (bits + 1) (-53) .exact
    (by rw [Nat.shiftLeft_eq, split]; exact Nat.mul_le_mul_right _ above)
    (by rw [Nat.shiftLeft_eq, next]; exact Nat.mul_lt_mul_of_pos_right below (by decide)) (by push_cast; omega)
  rw [unfolded]
  exact rounded.mono (by push_cast; omega) (by push_cast; omega)

theorem ofNat_large {count : Nat} (large : ¬count < 2 ^ 53) : (Float.ofNat count).toModel.unpack =
    unpack .binary64 (pack .binary64 (ofScientific .binary64 count 0)) := by
  change (Float.ofScientific count false 0).toModel.unpack = _
  unfold Float.ofScientific
  rw [dif_neg fun both => large both.1]
  rfl

theorem ofNat_normal {count : Nat} (positive : 0 < count) (small : count < 2 ^ 64) :
    Normal (Float.ofNat count).toModel.unpack (-52) 13 := by
  by_cases exactly : count < 2 ^ 53
  · have word := ofUInt64_normal positive exactly
    rw [ofNat_small exactly, unpack_mul, unpack_one, unpack_toFloat, word.unpack_pack (by decide) (by decide)]
    have product := mul_one_normal word (by decide)
    rw [product.unpack_pack (by decide) (by decide)]
    exact product.mono (by decide) (by decide)
  · have number := ofScientific_normal (Nat.le_of_not_lt exactly) small
    rw [ofNat_large exactly, number.unpack_pack (by decide) (by decide)]
    exact number.mono (by decide) (by decide)

theorem ofNat_zero : (Float.ofNat 0).toModel.unpack = .zero .positive := rfl

theorem quotient_isFinite {count total : Nat} (small : count < 2 ^ 64) (positive : 0 < total) (smallTotal : total < 2 ^ 64) :
    (Float.ofNat count / Float.ofNat total).isFinite = true ∧ ¬Float.ofNat count / Float.ofNat total < 0 := by
  suffices bounded : ∀ number, (Float.ofNat count / Float.ofNat total).toModel.unpack = number →
      number.isFinite = true ∧ number.lt (.zero .positive) = false by
    obtain ⟨finite, above⟩ := bounded _ rfl
    refine ⟨finite, fun below => ?_⟩
    change decide ((Float.ofNat count / Float.ofNat total).toModel < (0 : Float).toModel) = true at below
    rw [decide_eq_true_iff] at below
    change (Float.ofNat count / Float.ofNat total).toModel.unpack.lt (.zero .positive) = true at below
    rw [above] at below
    cases below
  rintro number rfl
  have divisor := ofNat_normal positive smallTotal
  rw [unpack_div]
  rcases Nat.eq_zero_or_pos count with rfl | some
  · obtain ⟨mantissa, exponent, positive, form, -⟩ := divisor
    have nothing : div .binary64 (.zero .positive) (.finite .positive mantissa exponent positive) = .zero .positive := rfl
    rw [ofNat_zero, form, nothing]
    exact ⟨by decide +kernel, by decide +kernel⟩
  · have quotient := div_normal (ofNat_normal some small) divisor (by decide)
    rw [quotient.unpack_pack (by decide) (by decide)]
    exact ⟨quotient.isFinite, quotient.not_lt_zero⟩

end

end FloatOrder
