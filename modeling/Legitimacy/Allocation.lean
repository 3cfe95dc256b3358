import Legitimacy.Node

namespace Legitimacy

structure PositiveStrength where
  value : Float
  finite : value.isFinite = true
  positive : ¬value ≤ 0

def PositiveStrength.new (value : Float) : Except LegitimacyError PositiveStrength :=
  if accepted : value.isFinite = true ∧ ¬value ≤ 0 then .ok ⟨value, accepted.1, accepted.2⟩
  else .error (.invalidPositiveStrength value)

structure EstateTotal where
  value : Float
  finite : value.isFinite = true
  positive : ¬value ≤ 0

def EstateTotal.new (value : Float) : Except LegitimacyError EstateTotal :=
  if accepted : value.isFinite = true ∧ ¬value ≤ 0 then .ok ⟨value, accepted.1, accepted.2⟩
  else .error (.invalidEstateTotal value)

structure Estate where
  total : EstateTotal
  unit : String

def Estate.new (total : Float) (unit : String) : Except LegitimacyError Estate := do
  let total ← EstateTotal.new total
  .ok ⟨total, unit⟩

structure Claim where
  claimantId : ClaimantId
  strength : PositiveStrength
  metrics : BTreeMap String Float

def Claim.new (claimantId : ClaimantId) (strength : Float) : Except LegitimacyError Claim :=
  if isBlank claimantId then .error (.invalidClaimantId claimantId)
  else if ¬strength.isFinite ∨ strength ≤ 0 then .error (.invalidClaimStrength claimantId strength)
  else do
    let strength ← PositiveStrength.new strength
    .ok ⟨claimantId, strength, ∅⟩

def Claim.withMetric (claim : Claim) (name : String) (value : Float) : Claim :=
  { claim with metrics := claim.metrics.insert name value }

abbrev Allocation : Type := BTreeMap ClaimantId Float

def Allocation.validate (allocation : Allocation) (claims : List Claim) : Except LegitimacyError Unit := do
  let expectedIds : BTreeSet ClaimantId := claims.foldl (fun ids claim => ids.insert claim.claimantId) ∅
  expectedIds.toList.forM fun expectedId =>
    if allocation.contains expectedId then .ok () else .error (.allocationMissingClaimant expectedId)
  allocation.toList.forM fun (claimantId, value) =>
    if ¬value.isFinite ∨ value < 0 then .error (.invalidAllocationValue claimantId value)
    else if ¬expectedIds.contains claimantId then .error (.allocationUnknownClaimant claimantId)
    else .ok ()

structure ValidAllocation where
  allocation : Allocation

def ValidAllocation.new (allocation : Allocation) (claims : List Claim) : Except LegitimacyError ValidAllocation := do
  Allocation.validate allocation claims
  .ok ⟨allocation⟩

structure Counterexample where
  description : String
  originalClaims : List Claim
  originalEstate : Estate
  originalAllocation : ValidAllocation
  perturbedClaims : List Claim
  perturbedEstate : Estate
  perturbedAllocation : ValidAllocation
  violation : String

inductive Verdict where
  | admissible (axiomName : String) (perturbationsTested : Nat)
  | rejected (axiomName : String) (counterexample : Counterexample)

end Legitimacy
