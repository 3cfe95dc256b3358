import Legitimacy.FloatRounding

namespace FloatOrder

open Float.Model (UnpackedFloat totalExponent)
open Float.Model.UnpackedFloat

section

variable {bits : BitVec 64} {sign : Sign} {mantissa : Nat} {exponent : Int} {positive : 0 < mantissa}

/-- The numbers of the format have at most 53 bits, and fewer only at the lowest exponent. -/
theorem canonical_of_unpack (form : unpack .binary64 bits = .finite sign mantissa exponent positive) :
    mantissa < 2 ^ 53 ∧ -1074 ≤ exponent ∧ exponent ≤ 971 ∧ (2 ^ 52 ≤ mantissa ∨ exponent = -1074) := by
  have high := biased_lt_of_unpack form
  have bias : Float.Model.Format.binary64.exponentBias = 1023 := by decide
  have width : (Float.Model.Format.binary64.mantissaBitsWithoutImplicit : Int) = 52 := by decide
  unfold unpack at form
  simp only [bias, width] at form
  by_cases infinite : @unpackExponent .binary64 bits = -1#11
  · rw [if_pos infinite] at form
    split at form <;> cases form
  · rw [if_neg infinite] at form
    by_cases subnormal : @unpackExponent .binary64 bits = 0#11
    · have none : (@unpackExponent .binary64 bits).toNat = 0 := by
        rw [subnormal]
        rfl
      rw [if_pos subnormal] at form
      split at form
      · cases form
      · obtain ⟨-, rfl, rfl⟩ := UnpackedFloat.finite.inj form
        have small := (@unpackMantissa .binary64 bits).isLt
        change _ < 2 ^ 52 at small
        omega
    · rw [if_neg subnormal] at form
      obtain ⟨-, rfl, rfl⟩ := UnpackedFloat.finite.inj form
      have some : (@unpackExponent .binary64 bits).toNat ≠ 0 := fun zero => subnormal (BitVec.eq_of_toNat_eq zero)
      have small := (@unpackMantissa .binary64 bits).isLt
      change _ < 2 ^ 52 at small
      have implicit : (1#1 ++ @unpackMantissa .binary64 bits).toNat = 2 ^ 52 + (@unpackMantissa .binary64 bits).toNat := by
        rw [BitVec.toNat_append, Nat.shiftLeft_eq, Nat.or_comm]
        change _ ||| 2 ^ 52 = _
        rw [Nat.or_two_pow_eq_add_of_lt small, Nat.add_comm]
      omega

end

section

variable {mantissa bits : Nat} {exponent : Int}

theorem round_full (above : 2 ^ (52 + bits) ≤ mantissa) (below : mantissa < 2 ^ (52 + bits + 1)) (large : -1074 ≤ exponent + bits) :
    round .binary64 .positive mantissa exponent = roundWithAccuracy .binary64 .positive mantissa exponent .exact := by
  have total : totalExponent mantissa exponent = exponent + bits + 53 := by
    unfold totalExponent
    rw [log2_eq above below]
    push_cast
    omega
  have none : (exponent - (exponent + bits)).toNat = 0 := by omega
  unfold UnpackedFloat.round decreaseExponent
  rw [total, targetExponent_eq (by omega)]
  simp only [Int.add_sub_cancel, none, Nat.shiftLeft_zero, Int.natCast_zero, Int.sub_zero]

theorem shifted_lt {kept rest : Nat} (below : kept < 2 ^ 53) (small : rest < 2 ^ bits) :
    kept * 2 ^ (bits + 1) + rest < 2 ^ (52 + (bits + 1) + 1) := by
  have next := Nat.mul_le_mul_right (2 ^ (bits + 1)) (Nat.succ_le_of_lt below)
  have power : 2 ^ (52 + (bits + 1) + 1) = 2 ^ 53 * 2 ^ (bits + 1) := by rw [Nat.add_right_comm, ← Nat.pow_add]
  have double := Nat.pow_succ 2 bits
  rw [Nat.succ_mul] at next
  omega

theorem roundBit_shifted (shift : Nat) (extended : ExtendedMantissa) :
    (extended >>> (shift + 1)).roundBit = (extended.mantissa / 2 ^ shift % 2 != 0) := by
  rw [← repeat_shiftRightOne]
  rfl

/-- Less than half a unit in the last place is rounded away. -/
theorem roundWithAccuracy_truncates {kept rest : Nat} (above : 2 ^ 52 ≤ kept) (below : kept < 2 ^ 53) (small : rest < 2 ^ bits)
    (large : -1074 ≤ exponent + (bits + 1)) : ∃ positive, roundWithAccuracy .binary64 .positive (kept * 2 ^ (bits + 1) + rest) exponent .exact =
      .finite .positive kept (exponent + (bits + 1)) positive := by
  have least : 2 ^ (52 + (bits + 1)) ≤ kept * 2 ^ (bits + 1) + rest := by
    rw [Nat.pow_add]
    exact (Nat.mul_le_mul_right _ above).trans (Nat.le_add_right _ _)
  have most := @shifted_lt bits kept rest below small
  have quotient : (kept * 2 ^ (bits + 1) + rest) / 2 ^ (bits + 1) = kept := by
    have double := Nat.pow_succ 2 bits
    rw [Nat.mul_comm, Nat.mul_add_div (Nat.two_pow_pos _), Nat.div_eq_of_lt (by omega), Nat.add_zero]
  obtain ⟨first, moved⟩ := @shiftToTargetExponent_full _ (bits + 1) exponent .exact least most (by push_cast; omega)
  rw [quotient] at first
  have even : (shiftToTargetExponent .binary64 (kept * 2 ^ (bits + 1) + rest) exponent .exact).1.roundBit = false := by
    have total : totalExponent (kept * 2 ^ (bits + 1) + rest) exponent = exponent + (bits + 1) + 53 := by
      unfold totalExponent
      rw [log2_eq least most]
      push_cast
      omega
    have shift : (exponent + (bits + 1 : Int) - exponent).toNat = bits + 1 := by omega
    unfold shiftToTargetExponent shiftToExponent
    rw [total, targetExponent_eq (by omega)]
    simp only [Int.add_sub_cancel, shift, roundBit_shifted]
    have half : kept * 2 ^ (bits + 1) + rest = 2 ^ bits * (kept * 2) + rest := by
      rw [Nat.pow_succ, Nat.mul_left_comm]
    change ((kept * 2 ^ (bits + 1) + rest) / 2 ^ bits % 2 != 0) = false
    rw [half, Nat.mul_add_div (Nat.two_pow_pos _), Nat.div_eq_of_lt small, Nat.add_zero, Nat.mul_mod_left]
    rfl
  have rounded : (shiftToTargetExponent .binary64 (kept * 2 ^ (bits + 1) + rest) exponent .exact).1.roundedMantissa = kept := by
    generalize (shiftToTargetExponent .binary64 (kept * 2 ^ (bits + 1) + rest) exponent .exact).1 = extended at first even
    obtain ⟨mantissa, roundBit, stickyBit⟩ := extended
    dsimp only at first even
    rw [first, even]
    cases stickyBit <;> rfl
  obtain ⟨second, movedAgain⟩ := @shiftToTargetExponent_full kept 0 (exponent + (bits + 1 : Nat)) .exact above below (by push_cast; omega)
  have positive : 0 < kept := by omega
  refine ⟨positive, ?_⟩
  unfold roundWithAccuracy
  simp only [rounded, moved, second, movedAgain, Nat.pow_zero, Nat.div_one, Int.natCast_zero, Int.add_zero]
  rw [dif_neg (by omega)]
  congr 1

end

section

variable {mantissa summand : Nat} {exponent power : Int}

theorem add_positive (positive : 0 < mantissa) (other : 0 < summand) :
    add .binary64 (.finite .positive mantissa exponent positive) (.finite .positive summand power other) =
      round .binary64 .positive (mantissa * 2 ^ (exponent - min exponent power).toNat + summand * 2 ^ (power - min exponent power).toNat)
        (min exponent power) := by
  have sum : 0 < mantissa * 2 ^ (exponent - min exponent power).toNat := Nat.mul_pos positive (Nat.two_pow_pos _)
  unfold add decreaseExponent UnpackedFloat.normalize
  simp only [Sign.apply, Nat.shiftLeft_eq]
  rw [← Int.natCast_add, Int.compare_eq_gt.2 (by omega)]
  rfl

theorem round_add_normal (below : mantissa < 2 ^ 53) (full : 2 ^ 52 ≤ summand) (small : summand < 2 ^ 53) (low : -1074 ≤ exponent)
    (lowest : -1074 ≤ power) :
    Normal (round .binary64 .positive (mantissa * 2 ^ (exponent - min exponent power).toNat + summand * 2 ^ (power - min exponent power).toNat)
      (min exponent power)) (min exponent power) (max exponent power + 2) := by
  obtain ⟨ceiling, bound⟩ : ∃ ceiling : Nat, (ceiling : Int) = max exponent power - min exponent power :=
    ⟨(max exponent power - min exponent power).toNat, Int.toNat_of_nonneg (by omega)⟩
  have first : mantissa * 2 ^ (exponent - min exponent power).toNat < 2 ^ 53 * 2 ^ ceiling :=
    Nat.mul_lt_mul_of_lt_of_le below (Nat.pow_le_pow_right (by decide) (by omega)) (Nat.two_pow_pos _)
  have second : summand * 2 ^ (power - min exponent power).toNat < 2 ^ 53 * 2 ^ ceiling :=
    Nat.mul_lt_mul_of_lt_of_le small (Nat.pow_le_pow_right (by decide) (by omega)) (Nat.two_pow_pos _)
  have least : 2 ^ 52 ≤ mantissa * 2 ^ (exponent - min exponent power).toNat + summand * 2 ^ (power - min exponent power).toNat :=
    (full.trans (Nat.le_mul_of_pos_right summand (Nat.two_pow_pos _))).trans (Nat.le_add_left _ _)
  have most : mantissa * 2 ^ (exponent - min exponent power).toNat + summand * 2 ^ (power - min exponent power).toNat < 2 ^ (54 + ceiling) := by
    have double : 2 ^ (54 + ceiling) = 2 ^ 53 * 2 ^ ceiling + 2 ^ 53 * 2 ^ ceiling := by
      rw [Nat.pow_add]
      omega
    omega
  generalize mantissa * 2 ^ (exponent - min exponent power).toNat + summand * 2 ^ (power - min exponent power).toNat = total at least most
  obtain ⟨size, above, under⟩ := exists_size (Nat.lt_of_lt_of_le (Nat.two_pow_pos 52) least)
  have wide : 52 < size + 1 := (Nat.pow_lt_pow_iff_right (by decide)).1 (least.trans_lt under)
  have narrow : size < 54 + ceiling := (Nat.pow_lt_pow_iff_right (by decide)).1 (above.trans_lt most)
  obtain ⟨bits, rfl⟩ := Nat.exists_eq_add_of_le (Nat.lt_succ_iff.1 wide)
  rw [round_full above under (by omega)]
  exact (roundWithAccuracy_normal above under (by omega)).mono (by omega) (by omega)

theorem round_add_truncates (above : 2 ^ 52 ≤ mantissa) (below : mantissa < 2 ^ 53) (small : summand < 2 ^ 53) (lowest : -1074 ≤ power)
    (high : exponent ≤ 971) (far : power + 54 ≤ exponent) :
    Normal (round .binary64 .positive (mantissa * 2 ^ (exponent - min exponent power).toNat + summand * 2 ^ (power - min exponent power).toNat)
      (min exponent power)) (-1074) 971 := by
  have lower : min exponent power = power := by omega
  obtain ⟨bits, distance⟩ : ∃ bits : Nat, exponent = power + (bits + 1) := ⟨(exponent - power - 1).toNat, by omega⟩
  have shift : (exponent - power).toNat = bits + 1 := by omega
  have within : summand < 2 ^ bits := small.trans_le (Nat.pow_le_pow_right (by decide) (by omega))
  rw [lower, Int.sub_self, Int.toNat_zero, Nat.pow_zero, Nat.mul_one, shift]
  have least : 2 ^ (52 + (bits + 1)) ≤ mantissa * 2 ^ (bits + 1) + summand := by
    rw [Nat.pow_add]
    exact (Nat.mul_le_mul_right _ above).trans (Nat.le_add_right _ _)
  have most : mantissa * 2 ^ (bits + 1) + summand < 2 ^ (52 + (bits + 1) + 1) := shifted_lt below within
  rw [round_full least most (by push_cast; omega)]
  obtain ⟨positive, truncated⟩ := @roundWithAccuracy_truncates bits power _ _ above below within (by omega)
  exact ⟨mantissa, power + (bits + 1), positive, truncated, above, below, by omega, by omega⟩

theorem unpack_add (left right : Float) : (left + right).toModel.unpack =
    unpack .binary64 (pack .binary64 (add .binary64 left.toModel.unpack right.toModel.unpack)) := rfl

theorem positive_form {value : Float} (finite : value.isFinite = true) (positive : ¬value ≤ 0) :
    ∃ mantissa exponent, ∃ some : 0 < mantissa, value.toModel.unpack = .finite .positive mantissa exponent some := by
  change value.toModel.unpack.isFinite = true at finite
  have zero : (0 : Float).toModel.unpack = .zero .positive := rfl
  rw [le_iff, zero] at positive
  cases form : value.toModel.unpack with
  | notANumber => simp [form, isFinite] at finite
  | infinity sign => simp [form, isFinite] at finite
  | zero sign => exact absurd ⟨_, _, by rw [form]; rfl, rfl, by simp [rankLE]⟩ positive
  | finite sign mantissa exponent some =>
    cases sign with
    | positive => exact ⟨mantissa, exponent, some, rfl⟩
    | negative => exact absurd ⟨_, _, by rw [form]; rfl, rfl, by simp [rankLE]⟩ positive

theorem add_in_range {value added : Float} (finite : value.isFinite = true) (positive : ¬value ≤ 0)
    (moderate : Normal added.toModel.unpack (-1074) 900) : (value + added).isFinite = true ∧ ¬value + added ≤ 0 := by
  obtain ⟨mantissa, exponent, some, form⟩ := positive_form finite positive
  obtain ⟨below, low, high, full⟩ := canonical_of_unpack form
  obtain ⟨summand, power, other, addedForm, least, most, lowest, highest⟩ := moderate
  have sum : Normal (add .binary64 value.toModel.unpack added.toModel.unpack) (-1074) 971 := by
    rw [form, addedForm, add_positive]
    by_cases near : exponent ≤ 969
    · exact (round_add_normal below least most low lowest).mono (by omega) (by omega)
    · exact round_add_truncates (full.resolve_right (by omega)) below most lowest high (by omega)
  have result : Normal (value + added).toModel.unpack (-1074) 971 := by
    rw [unpack_add, sum.unpack_pack le_rfl le_rfl]
    exact sum
  exact ⟨result.positive.1, result.positive.2.1⟩

end

end FloatOrder
