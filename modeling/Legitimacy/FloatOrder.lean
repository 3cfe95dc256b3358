import Mathlib.Data.List.Sort
import Mathlib.Algebra.GroupWithZero.Nat
import Mathlib.Algebra.Group.Int.Defs

namespace FloatOrder

open Float.Model (UnpackedFloat)

def rank : UnpackedFloat → Option (Int × Int × Int)
  | .notANumber => none
  | .infinity .negative => some (-2, 0, 0)
  | .finite .negative mantissa exponent _ => some (-1, -exponent, -mantissa)
  | .zero _ => some (0, 0, 0)
  | .finite .positive mantissa exponent _ => some (1, exponent, mantissa)
  | .infinity .positive => some (2, 0, 0)

def rankLE (left right : Int × Int × Int) : Prop :=
  left.1 < right.1 ∨ (left.1 = right.1 ∧ (left.2.1 < right.2.1 ∨ (left.2.1 = right.2.1 ∧ left.2.2 ≤ right.2.2)))

theorem rankLE.trans {first second third : Int × Int × Int} (left : rankLE first second) (right : rankLE second third) :
    rankLE first third := by
  unfold rankLE at *
  omega

theorem compare_then_isLE (e₁ e₂ : Int) (m₁ m₂ : Nat) :
    ((compare e₁ e₂).then (compare m₁ m₂)).isLE = true ↔ e₁ < e₂ ∨ (e₁ = e₂ ∧ m₁ ≤ m₂) := by
  rcases lt_trichotomy e₁ e₂ with below | equal | above
  · simp [Int.compare_eq_lt.2 below, below]
  · subst equal
    simp [Ordering.then, Nat.isLE_compare]
  · simp [Int.compare_eq_gt.2 above]
    omega

theorem swapped_compare_isLE (e₁ e₂ : Int) (m₁ m₂ : Nat) :
    ((compare e₁ e₂).then (compare m₁ m₂)).swap.isLE = true ↔ e₂ < e₁ ∨ (e₁ = e₂ ∧ m₂ ≤ m₁) := by
  rcases lt_trichotomy e₁ e₂ with below | equal | above
  · simp [Int.compare_eq_lt.2 below]
    omega
  · subst equal
    simp [Ordering.then, Nat.isGE_compare]
  · simp [Int.compare_eq_gt.2 above, above]

theorem unpacked_le_iff (left right : UnpackedFloat) :
    left.le right = true ↔ ∃ leftRank rightRank, rank left = some leftRank ∧ rank right = some rightRank ∧ rankLE leftRank rightRank := by
  delta UnpackedFloat.le UnpackedFloat.compare rank
  cases left with
  | notANumber => simp
  | infinity sign =>
    cases right with
    | notANumber => cases sign <;> simp
    | infinity other => cases sign <;> cases other <;> simp [rankLE] <;> decide
    | zero other => cases sign <;> dsimp only <;> simp [rankLE]
    | finite other m e positive => cases sign <;> cases other <;> dsimp only <;> simp [rankLE]
  | zero sign =>
    cases right with
    | notANumber => simp
    | infinity other => cases other <;> simp [rankLE]
    | zero other => simp [rankLE]
    | finite other m e positive => cases other <;> dsimp only <;> simp [rankLE]
  | finite sign m e positive =>
    cases right with
    | notANumber => cases sign <;> dsimp only <;> simp
    | infinity other => cases sign <;> cases other <;> dsimp only <;> simp [rankLE]
    | zero other => cases sign <;> dsimp only <;> simp [rankLE]
    | finite other m' e' positive' =>
      cases sign <;> cases other <;> dsimp only <;>
        simp only [Option.any_some, compare_then_isLE, swapped_compare_isLE] <;> simp [rankLE]

theorem le_iff (left right : Float) : left ≤ right ↔
    ∃ leftRank rightRank, rank left.toModel.unpack = some leftRank ∧ rank right.toModel.unpack = some rightRank ∧ rankLE leftRank rightRank := by
  rw [← unpacked_le_iff]
  change decide (left.toModel ≤ right.toModel) = true ↔ _
  rw [decide_eq_true_iff]
  exact Iff.rfl

theorem le_trans {first second third : Float} (left : first ≤ second) (right : second ≤ third) : first ≤ third := by
  obtain ⟨firstRank, secondRank, atFirst, atSecond, below⟩ := (le_iff first second).1 left
  obtain ⟨secondRank', thirdRank, again, atThird, above⟩ := (le_iff second third).1 right
  have same : secondRank = secondRank' := Option.some.inj (atSecond.symm.trans again)
  subst same
  exact (le_iff first third).2 ⟨firstRank, thirdRank, atFirst, atThird, below.trans above⟩

theorem beq_self {value : Float} (finite : value.isFinite = true) : (value == value) = true := by
  change value.toModel.unpack.isFinite = true at finite
  change value.toModel.unpack.beq value.toModel.unpack = true
  cases form : value.toModel.unpack with
  | notANumber => cases form ▸ finite
  | infinity sign => cases form ▸ finite
  | zero sign => rfl
  | finite sign m e positive =>
    delta UnpackedFloat.beq UnpackedFloat.compare
    cases sign <;> dsimp only <;> simp

open Float.Model.UnpackedFloat

theorem unpackSign_packComponents {spec : Float.Model.Format} {sign : Sign} {exponent : BitVec spec.exponentBits}
    {mantissa : BitVec spec.mantissaBitsWithoutImplicit} :
    unpackSign (packComponents spec sign exponent mantissa) = sign.toBitVec := by
  ext i hi
  obtain rfl : i = 0 := by omega
  have above : ¬spec.mantissaBitsWithoutImplicit + spec.exponentBits < spec.mantissaBitsWithoutImplicit := by omega
  delta unpackSign
  simp [packComponents, BitVec.getLsbD_eq_getElem, BitVec.getLsbD_append, above, BitVec.getElem_append]

def signOf : UnpackedFloat → Option Sign
  | .notANumber => none
  | .infinity sign => some sign
  | .zero sign => some sign
  | .finite sign .. => some sign

theorem unpack_cases {holds : UnpackedFloat → Prop} (bits : BitVec 64)
    (special : @unpackExponent .binary64 bits = -1#11 → holds .notANumber ∧ holds (.infinity (Sign.ofBitVec (@unpackSign .binary64 bits))))
    (zero : holds (.zero (Sign.ofBitVec (@unpackSign .binary64 bits))))
    (finite : ∀ mantissa exponent positive, holds (.finite (Sign.ofBitVec (@unpackSign .binary64 bits)) mantissa exponent positive)) :
    holds (unpack .binary64 bits) := by
  delta unpack
  dsimp only
  by_cases last : @unpackExponent .binary64 bits = -1#11
  · rw [if_pos last]
    by_cases whole : @unpackMantissa .binary64 bits = 0#52
    · rw [if_pos whole]
      exact (special last).2
    · rw [if_neg whole]
      exact (special last).1
  · rw [if_neg last]
    by_cases first : @unpackExponent .binary64 bits = 0#11
    · rw [if_pos first]
      by_cases whole : @unpackMantissa .binary64 bits = 0#52
      · rw [dif_pos whole]
        exact zero
      · rw [dif_neg whole]
        exact finite _ _ _
    · rw [if_neg first]
      exact finite _ _ _

theorem signOf_unpack_packComponents {sign : Sign} {exponent : BitVec 11} {mantissa : BitVec 52} :
    signOf (unpack .binary64 (packComponents .binary64 sign exponent mantissa)) = none ∨
      signOf (unpack .binary64 (packComponents .binary64 sign exponent mantissa)) = some sign := by
  have same : Sign.ofBitVec (unpackSign (packComponents .binary64 sign exponent mantissa)) = sign := by
    rw [unpackSign_packComponents]
    cases sign <;> rfl
  exact @unpack_cases (fun number => signOf number = none ∨ signOf number = some sign) _ (fun _ => ⟨.inl rfl, .inr (congrArg some same)⟩)
    (.inr (congrArg some same)) fun _ _ _ => .inr (congrArg some same)

theorem isFinite_unpack_packComponents {sign : Sign} {exponent : BitVec 11} {mantissa : BitVec 52} (inside : exponent ≠ -1#11) :
    (unpack .binary64 (packComponents .binary64 sign exponent mantissa)).isFinite = true := by
  refine @unpack_cases (fun number => number.isFinite = true) _ (fun last => ?_) rfl fun _ _ _ => rfl
  rw [unpackExponent_packComponents] at last
  exact absurd last inside

theorem signOf_unpack_pack (number : UnpackedFloat) :
    signOf (unpack .binary64 (pack .binary64 number)) = none ∨ signOf (unpack .binary64 (pack .binary64 number)) = signOf number := by
  fun_cases pack Float.Model.Format.binary64 number with
  | case1 => exact .inl rfl
  | case2 sign => exact signOf_unpack_packComponents
  | case3 sign => exact signOf_unpack_packComponents
  | case4 => exact signOf_unpack_packComponents
  | case5 => exact signOf_unpack_packComponents
  | case6 => exact signOf_unpack_packComponents

/-- Numbers of the format are below its infinity, so changing their sign keeps them finite. -/
theorem biased_lt_of_unpack {bits : BitVec 64} {sign : Sign} {mantissa : Nat} {exponent : Int} {positive : 0 < mantissa}
    (form : unpack .binary64 bits = .finite sign mantissa exponent positive) : (exponent + 1023 + 52).toNat + 1 < 2 ^ 11 := by
  have bounded : (@unpackExponent .binary64 bits) ≠ -1#11 → (@unpackExponent .binary64 bits).toNat < 2047 := by
    intro other
    by_contra large
    refine other (BitVec.eq_of_toNat_eq ?_)
    have top := (@unpackExponent .binary64 bits).isLt
    have last : (-1#11 : BitVec 11).toNat = 2047 := by decide
    rw [last]
    exact Nat.le_antisymm (Nat.lt_succ_iff.1 top) (Nat.le_of_not_lt large)
  have bias : Float.Model.Format.binary64.exponentBias = 1023 := by decide
  delta unpack at form
  dsimp only at form
  by_cases infinite : @unpackExponent .binary64 bits = -1#11
  · rw [if_pos infinite] at form
    by_cases whole : @unpackMantissa .binary64 bits = 0#52
    · cases (if_pos whole).symm.trans form
    · cases (if_neg whole).symm.trans form
  · have below := bounded infinite
    rw [if_neg infinite] at form
    by_cases subnormal : @unpackExponent .binary64 bits = 0#11
    · have none : (@unpackExponent .binary64 bits).toNat = 0 := by
        rw [subnormal]
        rfl
      rw [if_pos subnormal] at form
      by_cases whole : @unpackMantissa .binary64 bits = 0#52
      · cases (dif_pos whole).symm.trans form
      · obtain ⟨-, -, rfl⟩ := UnpackedFloat.finite.inj ((dif_neg whole).symm.trans form)
        omega
    · rw [if_neg subnormal] at form
      obtain ⟨-, -, rfl⟩ := UnpackedFloat.finite.inj form
      omega

theorem isFinite_unpack_pack {sign : Sign} {mantissa : Nat} {exponent : Int} {positive : 0 < mantissa}
    (small : (exponent + 1023 + 52).toNat + 1 < 2 ^ 11) :
    (unpack .binary64 (pack .binary64 (.finite sign mantissa exponent positive))).isFinite = true := by
  have bias : Float.Model.Format.binary64.exponentBias = 1023 := by decide
  have biased : (exponent + Float.Model.Format.binary64.exponentBias + (52 : Nat)).toNat + 1 < 2 ^ 11 := by
    rw [bias]
    exact small
  unfold pack
  dsimp only
  rw [if_neg (by omega)]
  split
  · refine isFinite_unpack_packComponents fun last => ?_
    have same := congrArg BitVec.toNat last
    rw [BitVec.toNat_ofNat] at same
    have top : (-1#11 : BitVec 11).toNat = 2047 := by decide
    omega
  · refine isFinite_unpack_packComponents (by decide)

theorem not_abs_lt_zero (value : Float) : ¬value.abs < 0 := by
  intro below
  change decide (value.abs.toModel < (0 : Float).toModel) = true at below
  rw [decide_eq_true_iff] at below
  change (unpack .binary64 (pack .binary64 (abs value.toModel.unpack))).lt (.zero .positive) = true at below
  have signed : signOf (abs value.toModel.unpack) = none ∨ signOf (abs value.toModel.unpack) = some .positive := by
    cases value.toModel.unpack with
    | notANumber => exact .inl rfl
    | infinity sign => exact .inr rfl
    | zero sign => exact .inr rfl
    | finite sign mantissa exponent positive => exact .inr rfl
  have packed : signOf (unpack .binary64 (pack .binary64 (abs value.toModel.unpack))) = none ∨
      signOf (unpack .binary64 (pack .binary64 (abs value.toModel.unpack))) = some .positive := by
    rcases signOf_unpack_pack (abs value.toModel.unpack) with unsigned | same
    · exact .inl unsigned
    · rw [same]
      exact signed
  generalize unpack .binary64 (pack .binary64 (abs value.toModel.unpack)) = number at below packed
  cases number with
  | notANumber => cases below
  | infinity sign =>
    cases sign with
    | positive => cases below
    | negative => rcases packed with unsigned | same <;> [cases unsigned; cases same]
  | zero sign => cases sign <;> cases below
  | finite sign mantissa exponent positive =>
    cases sign with
    | positive => cases below
    | negative => rcases packed with unsigned | same <;> [cases unsigned; cases same]

theorem isFinite_abs {value : Float} (finite : value.isFinite = true) : value.abs.isFinite = true := by
  change value.toModel.unpack.isFinite = true at finite
  change (unpack .binary64 (pack .binary64 (abs value.toModel.unpack))).isFinite = true
  cases form : value.toModel.unpack with
  | notANumber => cases form ▸ finite
  | infinity sign => cases form ▸ finite
  | zero sign => exact isFinite_unpack_packComponents (by decide)
  | finite sign mantissa exponent positive => exact isFinite_unpack_pack (biased_lt_of_unpack form)

theorem isFinite_zero_sub {value : Float} (finite : value.isFinite = true) : (0 - value).isFinite = true := by
  change value.toModel.unpack.isFinite = true at finite
  change (unpack .binary64 (pack .binary64 (sub .binary64 (.zero .positive) value.toModel.unpack))).isFinite = true
  cases form : value.toModel.unpack with
  | notANumber => cases form ▸ finite
  | infinity sign => cases form ▸ finite
  | zero sign =>
    unfold sub
    dsimp only
    split <;> exact isFinite_unpack_packComponents (by decide)
  | finite sign mantissa exponent positive => exact isFinite_unpack_pack (biased_lt_of_unpack form)

end FloatOrder
