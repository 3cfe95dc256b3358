import Legitimacy.ExceptRun
import Mathlib.Algebra.Order.Field.Basic
import Mathlib.Tactic.NormNum

namespace Legitimacy.PositiveProcedure

variable {K : Type} [Field K] [LinearOrder K] [IsStrictOrderedRing K]

def epsilon : K := 1 / 10 ^ 9

def lowerScaleProbes : Nat := 16

inductive BinaryDecision where
  | permit | deny
deriving DecidableEq

/-- What a graph answers, each method the default one or its own. -/
structure CapacityGraph (K : Type) where
  cv : List K → K
  cStar : List K → K → K
  capabilityResponse : List K → K → K → BinaryDecision
  spViolation : List K → K → Bool

def defaultCStar (cv : List K → K) (signal : List K) (delta : K) : K := delta / cv signal

def defaultCapabilityResponse (cStar : List K → K → K) (signal : List K) (delta c : K) : BinaryDecision :=
  if c + epsilon < cStar signal delta then .deny else .permit

def defaultSpViolation (cv : List K → K) (signal : List K) (gamma : K) : Bool := gamma ≤ cv signal + epsilon

def checkLowerScales (scale : K) (check : K → Bool) : Bool :=
  (List.range lowerScaleProbes).all fun index =>
    let lowerScale := scale * ((index + 1 : Nat) : K) / (lowerScaleProbes : K)
    0 < lowerScale && check lowerScale

structure CapacityKernel (K : Type) where
  graph : CapacityGraph K
  signal : List K
  delta : K
  channelCapacity : K

namespace CapacityKernel

def cStar (kernel : CapacityKernel K) : K := kernel.graph.cStar kernel.signal kernel.delta

def cv (kernel : CapacityKernel K) : K := kernel.graph.cv kernel.signal

end CapacityKernel

structure WellConditionedForCapacity (K : Type) where
  tolerancePos : Bool
  cvPos : Bool
  exactCapacityMatchesCv : Bool
  tolerance : K
  cv : K
  channelCapacity : K
deriving DecidableEq

inductive PreservedDiagnostic where
  | consistency | monotonicity
deriving DecidableEq

inductive PositiveProcedureError (K : Type) where
  | nonPositiveScale (scale : K)
  | aboveThreshold (c cStar : K)
  | notWellConditioned (condition : WellConditionedForCapacity K)
  | wrongDiagnostic (expected actual : PreservedDiagnostic)
deriving DecidableEq

/-- Every number of the field counts as finite. -/
def WellConditionedForCapacity.check (kernel : CapacityKernel K) : Except (PositiveProcedureError K) (WellConditionedForCapacity K) :=
  let condition := {
    tolerancePos := 0 < kernel.delta
    cvPos := 0 < kernel.cv
    exactCapacityMatchesCv := max (kernel.channelCapacity - kernel.cv) (kernel.cv - kernel.channelCapacity) ≤ epsilon
    tolerance := kernel.delta
    cv := kernel.cv
    channelCapacity := kernel.channelCapacity }
  if condition.tolerancePos && condition.cvPos && condition.exactCapacityMatchesCv then .ok condition
  else .error (.notWellConditioned condition)

def WellConditionedForCapacity.capacityThreshold (condition : WellConditionedForCapacity K) : K :=
  condition.tolerance / condition.channelCapacity

inductive PositiveProcedureCertificate (K : Type) where
  | consistency (capacityPos : Bool) (c cStar : K) (verdict : BinaryDecision)
      (noViolation sampledLowerScalesDeny sampledLowerScalesNoViolation : Bool) (capacityThreshold : K)
  | monotonicity (c cStar : K) (verdict : BinaryDecision) (upperScalesPermit : Bool) (capacityThreshold : K)
deriving DecidableEq

def governanceCertificate (kernel : CapacityKernel K) (scale : K) :
    Except (PositiveProcedureError K) (PositiveProcedureCertificate K) := do
  if ¬0 < scale then throw (.nonPositiveScale scale)
  let wellConditioned ← WellConditionedForCapacity.check kernel
  let cStar := kernel.cStar
  if cStar + epsilon < scale then throw (.aboveThreshold scale cStar)
  let capacityThreshold := wellConditioned.capacityThreshold
  if scale + epsilon < cStar then
    return .consistency true scale cStar (kernel.graph.capabilityResponse kernel.signal kernel.delta scale)
      (!kernel.graph.spViolation kernel.signal (kernel.delta / scale))
      (checkLowerScales scale fun lowerScale => kernel.graph.capabilityResponse kernel.signal kernel.delta lowerScale == .deny)
      (checkLowerScales scale fun lowerScale => !kernel.graph.spViolation kernel.signal (kernel.delta / lowerScale)) capacityThreshold
  else
    return .monotonicity scale cStar (kernel.graph.capabilityResponse kernel.signal kernel.delta scale) true capacityThreshold

/-- A certificate of consistency that denies with all its flags set, or one of monotonicity that permits. -/
def PositiveProcedureCertificate.Truthful : PositiveProcedureCertificate K → Prop
  | .consistency _ _ _ verdict noViolation lowerDeny lowerNoViolation _ =>
    verdict = .deny ∧ noViolation = true ∧ lowerDeny = true ∧ lowerNoViolation = true
  | .monotonicity _ _ verdict _ _ => verdict = .permit

theorem checkLowerScales_eq_true {scale : K} {check : K → Bool} (positive : 0 < scale)
    (downward : ∀ lower, 0 < lower → lower ≤ scale → check lower = true) : checkLowerScales scale check = true := by
  refine List.all_eq_true.2 fun index listed => ?_
  have bounded : ((index + 1 : Nat) : K) ≤ (lowerScaleProbes : K) := Nat.cast_le.2 (List.mem_range.1 listed)
  have probes : (0 : K) < (lowerScaleProbes : K) := Nat.cast_pos.2 (by decide)
  have step : (0 : K) < ((index + 1 : Nat) : K) := Nat.cast_pos.2 index.succ_pos
  have lower : 0 < scale * ((index + 1 : Nat) : K) / (lowerScaleProbes : K) := div_pos (mul_pos positive step) probes
  have below : scale * ((index + 1 : Nat) : K) / (lowerScaleProbes : K) ≤ scale :=
    (div_le_iff₀ probes).2 (mul_le_mul_of_nonneg_left bounded positive.le)
  simp only [Bool.and_eq_true, decide_eq_true_eq]
  exact ⟨lower, downward _ lower below⟩

theorem defaultSpViolation_eq_false {cv : List K → K} {signal : List K} {delta scale : K} (positive : 0 < scale) :
    defaultSpViolation cv signal (delta / scale) = false ↔ scale * (cv signal + epsilon) < delta := by
  rw [defaultSpViolation, decide_eq_false_iff_not, not_le, lt_div_iff₀ positive, mul_comm]

omit [IsStrictOrderedRing K] in
theorem WellConditionedForCapacity.check_eq_ok {kernel : CapacityKernel K} {condition : WellConditionedForCapacity K}
    (checked : WellConditionedForCapacity.check kernel = .ok condition) : 0 < kernel.cv := by
  simp only [WellConditionedForCapacity.check] at checked
  split at checked
  · rename_i passed
    simp only [Bool.and_eq_true, decide_eq_true_eq] at passed
    exact passed.1.2
  · cases checked

/-- An issued certificate is truthful unless its scale lies in the band where the tolerance on the scales and the one on their
inverses disagree. -/
theorem governanceCertificate_truthful_iff {kernel : CapacityKernel K} {scale : K} {certificate : PositiveProcedureCertificate K}
    (responds : kernel.graph.capabilityResponse = defaultCapabilityResponse kernel.graph.cStar)
    (violates : kernel.graph.spViolation = defaultSpViolation kernel.graph.cv)
    (issued : governanceCertificate kernel scale = .ok certificate) :
    certificate.Truthful ↔ (scale + epsilon < kernel.cStar → scale * (kernel.cv + epsilon) < kernel.delta) := by
  unfold governanceCertificate at issued
  by_cases positive : 0 < scale
  · rw [if_neg (not_not.2 positive)] at issued
    obtain ⟨condition, checked, issued⟩ := ExceptRun.bind_eq_ok.1 issued
    have cvPos := WellConditionedForCapacity.check_eq_ok checked
    dsimp only at issued
    split at issued
    · cases issued
    · by_cases below : scale + epsilon < kernel.cStar
      · obtain rfl : _ = certificate := Except.ok.inj ((if_pos below).symm.trans issued)
        have denies : ∀ lower, lower ≤ scale → kernel.graph.capabilityResponse kernel.signal kernel.delta lower = .deny := by
          intro lower within
          rw [responds]
          exact if_pos ((add_le_add_left within epsilon).trans_lt below)
        have lowerDeny := checkLowerScales_eq_true positive fun lower _ within => beq_iff_eq.2 (denies lower within)
        have unviolated : ∀ lower, 0 < lower → ((!kernel.graph.spViolation kernel.signal (kernel.delta / lower)) = true ↔
            lower * (kernel.cv + epsilon) < kernel.delta) := by
          intro lower lowerPos
          rw [Bool.not_eq_true', violates, defaultSpViolation_eq_false lowerPos]
          rfl
        constructor
        · exact fun truthful _ => (unviolated scale positive).1 truthful.2.1
        · intro wide
          have room := wide below
          have margin : 0 ≤ kernel.cv + epsilon := add_nonneg cvPos.le (by norm_num [epsilon])
          have lowerNoViolation := checkLowerScales_eq_true positive fun lower lowerPos within =>
            (unviolated lower lowerPos).2 ((mul_le_mul_of_nonneg_right within margin).trans_lt room)
          exact ⟨denies scale le_rfl, (unviolated scale positive).2 room, lowerDeny, lowerNoViolation⟩
      · obtain rfl : _ = certificate := Except.ok.inj ((if_neg below).symm.trans issued)
        have permits : kernel.graph.capabilityResponse kernel.signal kernel.delta scale = .permit := by
          rw [responds]
          exact if_neg below
        exact iff_of_true permits fun other => absurd other below
  · rw [if_pos positive] at issued
    cases issued

def fixedCvGraph (cv : K) : CapacityGraph K where
  cv := fun _ => cv
  cStar := defaultCStar fun _ => cv
  capabilityResponse := defaultCapabilityResponse (defaultCStar fun _ => cv)
  spViolation := defaultSpViolation fun _ => cv

def concreteHalfNoisyKernel : CapacityKernel ℚ := ⟨fixedCvGraph (1 / 2), [0, 1 / 2, 1], 1 / 10, 1 / 2⟩

theorem governanceCertificate_truthful_iff_half :
    (PositiveProcedureCertificate.consistency true (1 / 10) (1 / 5) .deny true true true (1 / 5) : PositiveProcedureCertificate ℚ).Truthful ↔
      (1 / 10 + epsilon < concreteHalfNoisyKernel.cStar →
        1 / 10 * (concreteHalfNoisyKernel.cv + epsilon) < concreteHalfNoisyKernel.delta) :=
  @governanceCertificate_truthful_iff ℚ _ _ _ concreteHalfNoisyKernel (1 / 10) _ rfl rfl (by decide +kernel)

def hundredthKernel : CapacityKernel ℚ := ⟨fixedCvGraph (1 / 100), [], 1, 1 / 100⟩

theorem governanceCertificate_untruthful :
    governanceCertificate hundredthKernel (999999999 / 10 ^ 7) =
        .ok (.consistency true (999999999 / 10 ^ 7) 100 .deny false true false 100) ∧
      ¬ (PositiveProcedureCertificate.consistency true (999999999 / 10 ^ 7) 100 .deny false true false 100 :
        PositiveProcedureCertificate ℚ).Truthful :=
  ⟨by decide +kernel, fun truthful => Bool.false_ne_true truthful.2.1⟩

end Legitimacy.PositiveProcedure
