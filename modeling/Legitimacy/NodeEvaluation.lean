import Legitimacy.Node

namespace Legitimacy

open ExceptRun

def numericField (claim : GovernanceClaim) (field : String) : Except LegitimacyError Float :=
  if field = "strength" then .ok claim.strength
  else match claim.metrics[field]? with
    | some value => .ok value
    | none => .error (.invalidGate field ("claim '" ++ claim.claimantId ++ "' does not provide metric '" ++ field ++ "'"))

/-- The key by which `f64::total_cmp` orders: the bits, with the magnitude reversed below zero. -/
def totalKey (value : Float) : Int :=
  let bits := value.toBits.toNat
  if bits < 2 ^ 63 then bits else 2 ^ 63 - 1 - bits

def peerRelativeRankAtLeastPercentile (rank total : Nat) (percentile : Float) : Bool :=
  decide (percentile ≤ Float.ofNat rank / Float.ofNat total)

def evaluatePeerRelative (current : GovernanceClaim) (claims : List GovernanceClaim) (field : String) (percentile : Float) :
    Except LegitimacyError Bool := do
  let currentValue ← numericField current field
  let values ← claims.mapM fun claim => numericField claim field
  let values := values.insertionSort fun left right => totalKey left ≤ totalKey right
  let lessOrEqual := (values.filter fun value => decide (value ≤ currentValue)).length
  .ok (peerRelativeRankAtLeastPercentile lessOrEqual values.length percentile)

def gateMatches (regexes : RegexEngine) (claim : GovernanceClaim) (claims : List GovernanceClaim) : Gate → Except LegitimacyError Bool
  | .prefixMatch pattern _ => .ok (claim.path.any fun path => startsWith path pattern)
  | .exactMatch value _ => .ok (claim.action == some value)
  | .contentMatch regex _ => do
    let compiled ← cachedContentRegex regexes regex
    .ok (claim.content.any compiled)
  | .thresholdGate field min _ => do
    let value ← numericField claim field
    .ok (decide (min ≤ value))
  | .peerRelative field percentile _ => evaluatePeerRelative claim claims field percentile

def evaluateFirstMatch (regexes : RegexEngine) (claim : GovernanceClaim) (claims : List GovernanceClaim) (default : Decision) :
    List Gate → Except LegitimacyError Decision
  | [] => .ok default
  | gate :: rest => do
    if ← gateMatches regexes claim claims gate then .ok (gateDecision gate)
    else evaluateFirstMatch regexes claim claims default rest

def matchedDecisions (regexes : RegexEngine) (claim : GovernanceClaim) (claims : List GovernanceClaim) :
    List Gate → Except LegitimacyError (List Decision)
  | [] => .ok []
  | gate :: rest => do
    let hit ← gateMatches regexes claim claims gate
    let matched ← matchedDecisions regexes claim claims rest
    .ok (if hit then gateDecision gate :: matched else matched)

def evaluateAnyMustPass (regexes : RegexEngine) (gates : List Gate) (claim : GovernanceClaim) (claims : List GovernanceClaim)
    (default : Decision) : Except LegitimacyError Decision := do
  let matched ← matchedDecisions regexes claim claims gates
  if .permit ∈ matched then .ok .permit
  else if .escalate ∈ matched then .ok .escalate
  else if .deny ∈ matched then .ok .deny
  else .ok default

def allMustPassLoop (regexes : RegexEngine) (claim : GovernanceClaim) (claims : List GovernanceClaim) :
    List Gate → Nat → Bool → Except LegitimacyError (Option (Nat × Bool))
  | [], matchedCount, sawEscalate => .ok (some (matchedCount, sawEscalate))
  | gate :: rest, matchedCount, sawEscalate => do
    if ← gateMatches regexes claim claims gate then
      match gateDecision gate with
      | .deny => .ok none
      | .escalate => allMustPassLoop regexes claim claims rest (matchedCount + 1) true
      | .permit => allMustPassLoop regexes claim claims rest (matchedCount + 1) sawEscalate
    else allMustPassLoop regexes claim claims rest matchedCount sawEscalate

def evaluateAllMustPass (regexes : RegexEngine) (gates : List Gate) (claim : GovernanceClaim) (claims : List GovernanceClaim)
    (default : Decision) : Except LegitimacyError Decision := do
  match ← allMustPassLoop regexes claim claims gates 0 false with
  | none => .ok .deny
  | some (matchedCount, sawEscalate) =>
    if matchedCount = gates.length ∧ gates ≠ [] then .ok (if sawEscalate then .escalate else .permit)
    else if sawEscalate then .ok .escalate
    else .ok default

def binaryDecision (regexes : RegexEngine) (gates : List Gate) (default : Decision) (combination : GateLogic)
    (claims : List GovernanceClaim) (claim : GovernanceClaim) : Except LegitimacyError Decision :=
  match combination with
  | .firstMatch => evaluateFirstMatch regexes claim claims default gates
  | .anyMustPass => evaluateAnyMustPass regexes gates claim claims default
  | .allMustPass => evaluateAllMustPass regexes gates claim claims default

def evaluateBinaryNode (regexes : RegexEngine) (gates : List Gate) (default : Decision) (combination : GateLogic)
    (claims : List GovernanceClaim) : Except LegitimacyError (List ClaimDecision) :=
  claims.mapM fun claim => do
    let decision ← binaryDecision regexes gates default combination claims claim
    .ok ⟨claim.claimantId, decision⟩

def thresholdDecision (threshold : Float) (field : String) (claim : GovernanceClaim) : Except LegitimacyError Decision := do
  let value ← numericField claim field
  .ok (if threshold ≤ value then .permit else .deny)

def evaluateThresholdNode (threshold : Float) (field : String) (claims : List GovernanceClaim) :
    Except LegitimacyError (List ClaimDecision) :=
  claims.mapM fun claim => do
    let decision ← thresholdDecision threshold field claim
    .ok ⟨claim.claimantId, decision⟩

def evaluateNodeValidated (regexes : RegexEngine) (node : GovernanceNode) (claims : List GovernanceClaim) :
    Except LegitimacyError (List ClaimDecision) :=
  match node with
  | .binary _ _ gates default combination => evaluateBinaryNode regexes gates default combination claims
  | .threshold _ _ threshold field => evaluateThresholdNode threshold field claims
  | .proportional id .. => .error (.unsupportedNodeType id.asStr (nodeKind node))

def evaluateNode (regexes : RegexEngine) (node : GovernanceNode) (claims : List GovernanceClaim) :
    Except LegitimacyError (List ClaimDecision) := do
  validateGovernanceClaims claims
  evaluateNodeValidated regexes node claims

def claimDecision (regexes : RegexEngine) (node : GovernanceNode) (claims : List GovernanceClaim) (claim : GovernanceClaim) :
    Except LegitimacyError Decision :=
  match node with
  | .binary _ _ gates default combination => binaryDecision regexes gates default combination claims claim
  | .threshold _ _ threshold field => thresholdDecision threshold field claim
  | .proportional id .. => .error (.unsupportedNodeType id.asStr (nodeKind node))

def isProportional : GovernanceNode → Bool
  | .proportional .. => true
  | _ => false

variable {regexes : RegexEngine} {claims cohort : List GovernanceClaim}

theorem evaluateNodeValidated_eq_ok {node : GovernanceNode}
    {decisions : List ClaimDecision} (evaluable : isProportional node = false) :
    evaluateNodeValidated regexes node claims = .ok decisions ↔
      List.Forall₂ (fun claim decision => claimDecision regexes node claims claim = .ok decision.decision ∧
        decision.claimantId = claim.claimantId) claims decisions := by
  have single : ∀ (decide : GovernanceClaim → Except LegitimacyError Decision) (claim : GovernanceClaim) (decision : ClaimDecision),
      ((do let made ← decide claim; .ok ⟨claim.claimantId, made⟩ : Except LegitimacyError ClaimDecision) = .ok decision) =
        (decide claim = .ok decision.decision ∧ decision.claimantId = claim.claimantId) := by
    intro decide claim decision
    rw [eq_iff_iff, bind_eq_ok]
    constructor
    · rintro ⟨made, atClaim, same⟩
      cases same
      exact ⟨atClaim, rfl⟩
    · rintro ⟨atClaim, sameId⟩
      exact ⟨decision.decision, atClaim, by rw [← sameId]⟩
  cases node with
  | binary id name gates default combination =>
    simp only [evaluateNodeValidated, evaluateBinaryNode, mapM_eq_ok, claimDecision, single]
  | threshold id name threshold field =>
    simp only [evaluateNodeValidated, evaluateThresholdNode, mapM_eq_ok, claimDecision, single]
  | proportional id name rule classes => simp [isProportional] at evaluable

section

variable (perm : claims.Perm cohort)

include perm

theorem evaluatePeerRelative_perm {current : GovernanceClaim} {field : String} {percentile : Float} {hit : Bool}
    (run : evaluatePeerRelative current claims field percentile = .ok hit) :
    evaluatePeerRelative current cohort field percentile = .ok hit := by
  unfold evaluatePeerRelative at run ⊢
  obtain ⟨currentValue, atCurrent, afterCurrent⟩ := bind_eq_ok.1 run
  obtain ⟨values, atValues, made⟩ := bind_eq_ok.1 afterCurrent
  obtain ⟨others, again, permuted⟩ := mapM_perm perm atValues
  have sortedPerm := ((List.perm_insertionSort (fun left right : Float => totalKey left ≤ totalKey right) values).trans permuted).trans
    (List.perm_insertionSort (fun left right : Float => totalKey left ≤ totalKey right) others).symm
  have sameRank := (sortedPerm.filter fun value => decide (value ≤ currentValue)).length_eq
  simp only [sameRank, sortedPerm.length_eq] at made
  exact bind_eq_ok.2 ⟨currentValue, atCurrent, bind_eq_ok.2 ⟨others, again, made⟩⟩

variable {claim : GovernanceClaim}

theorem gateMatches_perm {gate : Gate} {hit : Bool} (run : gateMatches regexes claim claims gate = .ok hit) :
    gateMatches regexes claim cohort gate = .ok hit := by
  cases gate with
  | prefixMatch pattern decision => exact run
  | exactMatch value decision => exact run
  | contentMatch regex decision => exact run
  | thresholdGate field min decision => exact run
  | peerRelative field percentile decision => exact evaluatePeerRelative_perm perm run

theorem evaluateFirstMatch_perm {default decision : Decision} {gates : List Gate}
    (run : evaluateFirstMatch regexes claim claims default gates = .ok decision) :
    evaluateFirstMatch regexes claim cohort default gates = .ok decision := by
  induction gates with
  | nil => exact run
  | cons gate rest ih =>
    unfold evaluateFirstMatch at run ⊢
    obtain ⟨hit, atGate, after⟩ := bind_eq_ok.1 run
    refine bind_eq_ok.2 ⟨hit, gateMatches_perm perm atGate, ?_⟩
    cases hit with
    | true => exact after
    | false => exact ih after

theorem matchedDecisions_perm {gates : List Gate} {matched : List Decision}
    (run : matchedDecisions regexes claim claims gates = .ok matched) : matchedDecisions regexes claim cohort gates = .ok matched := by
  induction gates generalizing matched with
  | nil => exact run
  | cons gate rest ih =>
    unfold matchedDecisions at run ⊢
    obtain ⟨hit, atGate, after⟩ := bind_eq_ok.1 run
    obtain ⟨others, atRest, made⟩ := bind_eq_ok.1 after
    exact bind_eq_ok.2 ⟨hit, gateMatches_perm perm atGate, bind_eq_ok.2 ⟨others, ih atRest, made⟩⟩

theorem allMustPassLoop_perm {gates : List Gate} {matchedCount : Nat} {sawEscalate : Bool} {outcome : Option (Nat × Bool)}
    (run : allMustPassLoop regexes claim claims gates matchedCount sawEscalate = .ok outcome) :
    allMustPassLoop regexes claim cohort gates matchedCount sawEscalate = .ok outcome := by
  induction gates generalizing matchedCount sawEscalate with
  | nil => exact run
  | cons gate rest ih =>
    unfold allMustPassLoop at run ⊢
    obtain ⟨hit, atGate, after⟩ := bind_eq_ok.1 run
    refine bind_eq_ok.2 ⟨hit, gateMatches_perm perm atGate, ?_⟩
    cases hit with
    | false => exact ih after
    | true =>
      cases made : gateDecision gate with
      | deny => simpa [made] using after
      | escalate =>
        simp only [made, if_true] at after ⊢
        exact ih after
      | permit =>
        simp only [made, if_true] at after ⊢
        exact ih after

theorem claimDecision_perm {node : GovernanceNode} {decision : Decision}
    (run : claimDecision regexes node claims claim = .ok decision) : claimDecision regexes node cohort claim = .ok decision := by
  cases node with
  | threshold id name threshold field => exact run
  | proportional id name rule classes => exact run
  | binary id name gates default combination =>
    cases combination with
    | firstMatch => exact evaluateFirstMatch_perm perm run
    | anyMustPass =>
      obtain ⟨matched, atGates, made⟩ := bind_eq_ok.1 run
      exact bind_eq_ok.2 ⟨matched, matchedDecisions_perm perm atGates, made⟩
    | allMustPass =>
      obtain ⟨outcome, atGates, made⟩ := bind_eq_ok.1 run
      exact bind_eq_ok.2 ⟨outcome, allMustPassLoop_perm perm atGates, made⟩

end

end Legitimacy
