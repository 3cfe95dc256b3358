import Legitimacy.Allocation
import Legitimacy.CoalitionOrder
import Mathlib.Algebra.Order.Ring.Rat

namespace Legitimacy.Diagnostics

open ExceptRun Iteration

structure FullConsistencyOptions where
  mode : ConsistencyMode
  allowExponentialConsistency : Bool

structure ConsistencyComplexity where
  coalitionsTested : Nat
  survivorChecks : Nat
deriving DecidableEq

/-- The exact rationals of the source, which has them overflow instead. -/
abbrev ConsistencyRational : Type := ℚ

structure RationalClaim where
  claimantId : ClaimantId
  strength : ConsistencyRational

structure RationalEstate where
  total : ConsistencyRational
  unit : String

def RationalEstate.new (total : ConsistencyRational) (unit : String) : Except LegitimacyError RationalEstate :=
  if total ≤ 0 then .error (.invalidInput "rational estate total must be positive") else .ok ⟨total, unit⟩

abbrev RationalAllocation : Type := BTreeMap ClaimantId ConsistencyRational

structure RationalConsistencyCounterexample where
  removed : List ClaimantId
  survivor : ClaimantId
  originalShare : ConsistencyRational
  reducedShare : ConsistencyRational
deriving DecidableEq

inductive RationalFullConsistencyVerdict where
  | admissible
  | rejected (counterexample : RationalConsistencyCounterexample)
deriving DecidableEq

structure RationalFullConsistencyAuditArtifact where
  verdict : RationalFullConsistencyVerdict
  complexity : ConsistencyComplexity
deriving DecidableEq

def fullConsistencyWarnClaimants : Nat := 20

def validateFullComplexityGate (claimantCount : Nat) (allowExponentialConsistency : Bool) : Except LegitimacyError Unit :=
  if claimantCount > fullConsistencyWarnClaimants ∧ !allowExponentialConsistency then
    .error (.invalidInput ("full Young consistency for " ++ toString claimantCount ++ " claimants requires --allow-exponential-consistency"))
  else .ok ()

def FullConsistencyOptions.gate (options : FullConsistencyOptions) (claimantCount : Nat) : Except LegitimacyError Unit :=
  if options.mode = .full then validateFullComplexityGate claimantCount options.allowExponentialConsistency else .ok ()

/-- What a loop over the enumeration sees; there are never more coalitions than sets of indices. -/
def enumerated (claimCount : Nat) (mode : ConsistencyMode) : List (List Nat) :=
  match drain CoalitionEnumeration.next (2 ^ claimCount + 1) (.new claimCount mode) with
  | .ok (some coalitions) => coalitions
  | _ => []

def removedLookup (claimCount : Nat) (removedIndices : List Nat) : List Bool :=
  removedIndices.foldl (fun lookup index => lookup.set index true) (List.replicate claimCount false)

section

variable {C : Type}

def removedIds (claimantId : C → ClaimantId) (claims : List C) (removedIndices : List Nat) : List ClaimantId :=
  removedIndices.filterMap fun index => claims[index]?.map claimantId

def reducedClaims (claims : List C) (removedIndices : List Nat) : List C :=
  let lookup := removedLookup claims.length removedIndices
  (claims.zipIdx.filter fun entry => !(lookup[entry.2]?).getD false).map (·.1)

end

def rationalShare (allocation : RationalAllocation) (claimantId context : String) : Except LegitimacyError ConsistencyRational :=
  allocation[claimantId]?.elim (.error (.missingAllocationShare claimantId context)) .ok

def removedTotal (originalAllocation : RationalAllocation) (ids : List ClaimantId) : Except LegitimacyError ConsistencyRational :=
  ids.foldlM (fun acc claimantId => do
    let share ← rationalShare originalAllocation claimantId "rational removed share"
    .ok (acc + share)) 0

def compareSurvivors (originalAllocation reducedAllocation : RationalAllocation) (ids : List ClaimantId) :
    List RationalClaim → ConsistencyComplexity → Except LegitimacyError (Option RationalConsistencyCounterexample × ConsistencyComplexity)
  | [], complexity => .ok (none, complexity)
  | claim :: rest, complexity => do
    let complexity := { complexity with survivorChecks := complexity.survivorChecks + 1 }
    let originalShare ← rationalShare originalAllocation claim.claimantId "rational original share"
    let reducedShare ← rationalShare reducedAllocation claim.claimantId "rational reduced share"
    if originalShare ≠ reducedShare then .ok (some ⟨ids, claim.claimantId, originalShare, reducedShare⟩, complexity)
    else compareSurvivors originalAllocation reducedAllocation ids rest complexity

section

variable (allocate : List RationalClaim → RationalEstate → Except LegitimacyError RationalAllocation)
  (claims : List RationalClaim) (estate : RationalEstate)

def checkReduction (originalAllocation : RationalAllocation) (removedIndices : List Nat) (complexity : ConsistencyComplexity) :
    Except LegitimacyError (Option RationalConsistencyCounterexample × ConsistencyComplexity) := do
  let ids := removedIds (·.claimantId) claims removedIndices
  let survivors := reducedClaims claims removedIndices
  let removed ← removedTotal originalAllocation ids
  let reducedTotal := estate.total - removed
  let complexity := { complexity with coalitionsTested := complexity.coalitionsTested + 1 }
  if survivors.isEmpty ∨ reducedTotal ≤ 0 then .ok (none, complexity)
  else do
    let reducedEstate ← RationalEstate.new reducedTotal estate.unit
    let reducedAllocation ← allocate survivors reducedEstate
    compareSurvivors originalAllocation reducedAllocation ids survivors complexity

def checkReductions (originalAllocation : RationalAllocation) :
    List (List Nat) → ConsistencyComplexity → Except LegitimacyError RationalFullConsistencyAuditArtifact
  | [], complexity => .ok ⟨.admissible, complexity⟩
  | removedIndices :: rest, complexity => do
    let (counterexample, complexity) ← checkReduction allocate claims estate originalAllocation removedIndices complexity
    match counterexample with
    | some counterexample => return ⟨.rejected counterexample, complexity⟩
    | none => checkReductions originalAllocation rest complexity

def checkFullConsistencyRational (options : FullConsistencyOptions) : Except LegitimacyError RationalFullConsistencyAuditArtifact := do
  options.gate claims.length
  let originalAllocation ← allocate claims estate
  checkReductions allocate claims estate originalAllocation (enumerated claims.length options.mode) ⟨0, 0⟩

end

/-- The float that an error shows of a rational. -/
def shown (value : ℚ) : Float := Float.ofInt value.num / Float.ofNat value.den

def validateExactClaim (claim : RationalClaim) : Except LegitimacyError Unit :=
  if isBlank claim.claimantId then .error (.invalidClaimantId claim.claimantId)
  else if claim.strength ≤ 0 then .error (.invalidClaimStrength claim.claimantId (shown claim.strength))
  else .ok ()

def validateUnseenExactClaims (seen : BTreeSet ClaimantId) : List RationalClaim → Except LegitimacyError Unit
  | [] => .ok ()
  | claim :: rest => do
    validateExactClaim claim
    if seen.contains claim.claimantId then .error (.duplicateClaimantId claim.claimantId)
    else validateUnseenExactClaims (seen.insert claim.claimantId) rest

def validateExactClaims (claims : List RationalClaim) : Except LegitimacyError Unit := validateUnseenExactClaims ∅ claims

def RationalAllocation.validate (allocation : RationalAllocation) (claims : List RationalClaim) : Except LegitimacyError Unit := do
  let expectedIds : BTreeSet ClaimantId := claims.foldl (fun ids claim => ids.insert claim.claimantId) ∅
  expectedIds.toList.forM fun expectedId =>
    if allocation.contains expectedId then .ok () else .error (.allocationMissingClaimant expectedId)
  allocation.toList.forM fun (claimantId, value) =>
    if value < 0 then .error (.invalidAllocationValue claimantId (shown value))
    else if ¬expectedIds.contains claimantId then .error (.allocationUnknownClaimant claimantId)
    else .ok ()

section

variable (tolerance : ℚ)

def RationalAllocation.validateFeasible (allocation : RationalAllocation) (estate : RationalEstate) : Except LegitimacyError Unit :=
  let totalAllocated := (allocation.toList.map (·.2)).sum
  let slack := tolerance + tolerance * |totalAllocated| + tolerance * |estate.total|
  if totalAllocated - estate.total ≤ slack then .ok ()
  else .error (.allocationExceedsEstate (shown totalAllocated) (shown estate.total))

/-- A rule; whether its allocations have to fit the estate depends on its kind. -/
structure ExactRule where
  allocateSpec : List RationalClaim → RationalEstate → Except LegitimacyError RationalAllocation
  requiresFeasibleAllocation : Bool

def ExactRule.allocate (rule : ExactRule) (claims : List RationalClaim) (estate : RationalEstate) : Except LegitimacyError RationalAllocation := do
  let allocation ← rule.allocateSpec claims estate
  RationalAllocation.validate allocation claims
  if rule.requiresFeasibleAllocation then RationalAllocation.validateFeasible tolerance allocation estate
  return allocation

def evaluateExactRule (rule : ExactRule) (claims : List RationalClaim) (estate : RationalEstate) :
    Except LegitimacyError RationalAllocation := do
  validateExactClaims claims
  rule.allocate tolerance claims estate

/-- The counterexample without its texts, which show the removed ids, the claimant, both shares and the counters. -/
structure ExactCounterexample where
  removed : List ClaimantId
  affected : ClaimantId
  originalShare : ℚ
  reducedShare : ℚ
  originalClaims : List RationalClaim
  originalEstate : RationalEstate
  originalAllocation : RationalAllocation
  perturbedClaims : List RationalClaim
  perturbedEstate : RationalEstate
  perturbedAllocation : RationalAllocation

inductive ExactVerdict where
  | admissible (axiomName : String) (perturbationsTested : Nat)
  | rejected (axiomName : String) (counterexample : ExactCounterexample)

structure FullConsistencyAudit where
  verdict : ExactVerdict
  complexity : ConsistencyComplexity

def axiomLabel : ConsistencyMode → String
  | .full => "consistency (Young full sub-coalition)"
  | .bounded 2 => "consistency (single-claimant and pair reductions)"
  | .bounded maxRemoved => "consistency (bounded sub-coalitions, max_removed=" ++ toString maxRemoved ++ ")"

def compareReduced (originalAllocation reducedAllocation : RationalAllocation) :
    List RationalClaim → ConsistencyComplexity → Except LegitimacyError (Option (ClaimantId × ℚ × ℚ) × ConsistencyComplexity)
  | [], complexity => .ok (none, complexity)
  | claim :: rest, complexity => do
    let complexity := { complexity with survivorChecks := complexity.survivorChecks + 1 }
    let originalShare ← rationalShare originalAllocation claim.claimantId "consistency original share"
    let reducedShare ← rationalShare reducedAllocation claim.claimantId "consistency reduced share"
    if |originalShare - reducedShare| > tolerance + tolerance * (|originalShare| + |reducedShare|) then
      .ok (some (claim.claimantId, originalShare, reducedShare), complexity)
    else compareReduced originalAllocation reducedAllocation rest complexity

variable (rule : ExactRule) (claims : List RationalClaim) (estate : RationalEstate)

/-- The estate is reduced to what the survivors had of it. -/
def evaluateReduction (originalAllocation : RationalAllocation) (removedIndices : List Nat) (complexity : ConsistencyComplexity)
    (axiomName : String) : Except LegitimacyError (Option ExactVerdict × ConsistencyComplexity) := do
  let ids := removedIds (·.claimantId) claims removedIndices
  let survivors := reducedClaims claims removedIndices
  let shares ← survivors.mapM fun claim => rationalShare originalAllocation claim.claimantId "consistency reduction surviving share"
  let reducedTotal := shares.sum
  let complexity := { complexity with coalitionsTested := complexity.coalitionsTested + 1 }
  if survivors.isEmpty ∨ reducedTotal ≤ tolerance then .ok (none, complexity)
  else do
    let reducedEstate ← if reducedTotal ≤ 0 then .error (.invalidEstateTotal (shown reducedTotal)) else .ok ⟨reducedTotal, estate.unit⟩
    let reducedAllocation ← evaluateExactRule tolerance rule survivors reducedEstate
    let (changed, complexity) ← compareReduced tolerance originalAllocation reducedAllocation survivors complexity
    .ok (changed.map fun (affected, originalShare, reducedShare) => .rejected axiomName
      ⟨ids, affected, originalShare, reducedShare, claims, estate, originalAllocation, survivors, reducedEstate, reducedAllocation⟩, complexity)

def evaluateReductions (originalAllocation : RationalAllocation) (axiomName : String) :
    List (List Nat) → ConsistencyComplexity → Except LegitimacyError FullConsistencyAudit
  | [], complexity => .ok ⟨.admissible axiomName complexity.coalitionsTested, complexity⟩
  | removedIndices :: rest, complexity => do
    let (verdict, complexity) ← evaluateReduction tolerance rule claims estate originalAllocation removedIndices complexity axiomName
    match verdict with
    | some verdict => return ⟨verdict, complexity⟩
    | none => evaluateReductions originalAllocation axiomName rest complexity

def checkConsistencyWithMode (mode : ConsistencyMode) : Except LegitimacyError FullConsistencyAudit := do
  let originalAllocation ← evaluateExactRule tolerance rule claims estate
  evaluateReductions tolerance rule claims estate originalAllocation (axiomLabel mode) (enumerated claims.length mode) ⟨0, 0⟩

def checkFullConsistencyAudit (options : FullConsistencyOptions) : Except LegitimacyError FullConsistencyAudit := do
  options.gate claims.length
  checkConsistencyWithMode tolerance rule claims estate options.mode

def checkFullConsistency (options : FullConsistencyOptions) : Except LegitimacyError ExactVerdict := do
  let audit ← checkFullConsistencyAudit tolerance rule claims estate options
  .ok audit.verdict

def checkBoundedConsistency (maxRemoved : Nat) : Except LegitimacyError ExactVerdict := do
  let audit ← checkConsistencyWithMode tolerance rule claims estate (.bounded maxRemoved)
  .ok audit.verdict

end

end Legitimacy.Diagnostics
