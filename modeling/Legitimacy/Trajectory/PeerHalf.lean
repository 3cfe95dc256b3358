import Legitimacy.FloatRounding
import Legitimacy.TraversalOutcome
import Legitimacy.Trajectory.TemporalVerdict

namespace Legitimacy.Trajectory

open ExceptRun

section

def peerHalfGate : GateSpec where
  gateType := "peer_relative"
  pattern := none
  value := none
  regex := none
  field := some "strength"
  min := none
  percentile := some 0.5
  decision := "permit"

def peerHalfNodeSpec : NodeSpec where
  id := peerHalfNodeId
  nodeType := "binary"
  default := some "deny"
  combination := some "first_match"
  gates := [peerHalfGate]
  threshold := none
  field := none
  name := some peerHalfNodeId

def peerHalfEnvelope : TrajectoryCompositionPolicyEnvelope where
  policyFormat := trajectoryCompositionPolicyFormat
  policyFormatVersion := trajectoryCompositionPolicyFormatVersion
  policyIdentity := trajectoryCompositionPolicyId
  policyVersion := trajectoryCompositionPolicyVersion
  occurrenceEncoderIdentity := occurrenceEncoderId
  occurrenceEncoderVersion := occurrenceEncoderVersion
  historicalPropertyIdentity := historicalPropertyId
  historicalPropertyVersion := historicalPropertyVersion
  graph := ⟨⟨graphName, graphVersion⟩, [peerHalfNodeSpec], []⟩

def peerHalfNode : GovernanceNode :=
  .binary ⟨peerHalfNodeId, by decide⟩ peerHalfNodeId [.peerRelative "strength" 0.5 .permit] .deny .firstMatch

theorem utf8ByteSize_foldl (parts : List String) (start : String) :
    (parts.foldl (· ++ ·) start).utf8ByteSize = start.utf8ByteSize + (parts.map String.utf8ByteSize).sum := by
  induction parts generalizing start with
  | nil => rfl
  | cons part rest ih => rw [List.foldl_cons, ih, String.utf8ByteSize_append, List.map_cons, List.sum_cons, Nat.add_assoc]

theorem policyBytes_length : trajectoryCompositionPolicyBytes.length = maxTrajectoryCompositionPolicyBytes := by
  unfold trajectoryCompositionPolicyBytes trajectoryCompositionPolicyText String.join
  rw [Utf8.length_bytes, utf8ByteSize_foldl]
  decide +kernel

theorem ensurePolicySize_policy : ensurePolicySize trajectoryCompositionPolicyBytes = .ok ⟨⟩ :=
  guard_eq_ok.2 ⟨Nat.not_lt.2 policyBytes_length.le, rfl⟩

theorem canonicalPolicyBytes_supported {envelope : TrajectoryCompositionPolicyEnvelope}
    (supported : validateRestrictedProfile envelope = .ok ⟨⟩) : canonicalPolicyBytes envelope = .ok trajectoryCompositionPolicyBytes := by
  obtain ⟨whole, run⟩ := guard_eq_ok.1 supported
  obtain ⟨node, atNode, run⟩ := bind_eq_ok.1 run
  obtain ⟨nodeFits, run⟩ := guard_eq_ok.1 run
  obtain ⟨gate, atGate, run⟩ := bind_eq_ok.1 run
  obtain ⟨gateFits, -⟩ := guard_eq_ok.1 run
  simp only [supportedEnvelope, Bool.not_eq_true', Bool.not_eq_false, Bool.and_eq_true, decide_eq_true_eq] at whole
  simp only [supportedNode, Bool.not_eq_true', Bool.not_eq_false, Bool.and_eq_true, decide_eq_true_eq] at nodeFits
  simp only [supportedGate, Bool.not_eq_true', Bool.not_eq_false, Bool.and_eq_true, decide_eq_true_eq] at gateFits
  obtain ⟨⟨⟨⟨⟨⟨⟨⟨⟨⟨⟨format, formatVersion⟩, identity⟩, version⟩, encoder⟩, encoderVersion⟩, property⟩, propertyVersion⟩, name⟩,
    graphVersion⟩, -⟩, -⟩ := whole
  obtain ⟨⟨⟨⟨⟨⟨⟨nodeId, nodeType⟩, nodeName⟩, default⟩, combination⟩, -⟩, -⟩, -⟩ := nodeFits
  obtain ⟨⟨⟨⟨⟨⟨⟨gateType, -⟩, -⟩, -⟩, field⟩, -⟩, -⟩, decision⟩ := gateFits
  refine bind_eq_ok.2 ⟨node, atNode, bind_eq_ok.2 ⟨gate, atGate, ?_⟩⟩
  unfold canonicalPolicyText trajectoryCompositionPolicyBytes trajectoryCompositionPolicyText
  rw [format, formatVersion, identity, version, encoder, encoderVersion, property, propertyVersion, name, graphVersion, nodeId, nodeType,
    nodeName, default, combination, gateType, field, decision]
  refine congrArg (fun lines : List String => (Except.ok (Utf8.bytes (String.join lines)) : Except _ _)) ?_
  rfl

theorem peerHalf_supported : validateRestrictedProfile peerHalfEnvelope = .ok ⟨⟩ := rfl

theorem peerHalf_graph (regexes : RegexEngine) :
    peerHalfEnvelope.graph.tryIntoGraph "trajectory composition policy v0" regexes = .ok (loneGraph peerHalfNode) := rfl

variable (sha256 : List UInt8 → Digest)

def peerHalfBinding : ArtifactBinding :=
  ⟨trajectoryCompositionPolicyId, trajectoryCompositionPolicyVersion, artifactDigest sha256 trajectoryCompositionPolicyBytes⟩

def peerHalfPolicy : ExecutableTrajectoryCompositionPolicy :=
  ⟨trajectoryCompositionPolicyBytes, artifactDigest sha256 trajectoryCompositionPolicyBytes, loneGraph peerHalfNode⟩

variable {sha256}

/-- Only the fixed bytes are loaded, for the binding to them, whatever else the reader reads. -/
theorem loadTrajectoryCompositionPolicy_eq_ok {toml : EnvelopeReader} {regexes : RegexEngine} {exactBytes : List UInt8}
    {binding : ArtifactBinding} {policy : ExecutableTrajectoryCompositionPolicy}
    (reads : toml trajectoryCompositionPolicyText = some peerHalfEnvelope) :
    loadTrajectoryCompositionPolicy sha256 toml regexes exactBytes binding = .ok policy ↔
      exactBytes = trajectoryCompositionPolicyBytes ∧ binding = peerHalfBinding sha256 ∧ policy = peerHalfPolicy sha256 := by
  constructor
  · intro run
    obtain ⟨⟨⟩, -, run⟩ := bind_eq_ok.1 run
    obtain ⟨digest, run⟩ := guard_eq_ok.1 run
    obtain ⟨input, decoded, run⟩ := bind_eq_ok.1 run
    obtain ⟨envelope, read, run⟩ := bind_eq_ok.1 run
    obtain ⟨identity, run⟩ := guard_eq_ok.1 run
    obtain ⟨version, run⟩ := guard_eq_ok.1 run
    obtain ⟨⟨⟩, supported, run⟩ := bind_eq_ok.1 run
    obtain ⟨canonical, written, run⟩ := bind_eq_ok.1 run
    obtain ⟨same, run⟩ := guard_eq_ok.1 run
    obtain ⟨graph, compiled, made⟩ := bind_eq_ok.1 run
    obtain rfl : trajectoryCompositionPolicyBytes = canonical := Except.ok.inj ((canonicalPolicyBytes_supported supported).symm.trans written)
    obtain rfl := not_not.1 same
    have text := elim_eq_ok.1 decoded
    rw [trajectoryCompositionPolicyBytes, Utf8.fromUTF8_bytes] at text
    obtain rfl := Option.some.inj text
    obtain rfl : peerHalfEnvelope = envelope := Option.some.inj (reads.symm.trans (elim_eq_ok.1 read))
    rw [mapError_eq_ok, peerHalf_graph] at compiled
    obtain rfl := Except.ok.inj compiled
    refine ⟨rfl, ?_, (Except.ok.inj made).symm⟩
    obtain ⟨bindingIdentity, bindingVersion, hash⟩ := binding
    simp only [not_not] at digest identity version
    rw [peerHalfBinding, digest, ← identity, ← version]
    rfl
  · rintro ⟨sameBytes, sameBinding, samePolicy⟩
    rw [sameBytes, sameBinding, samePolicy]
    refine bind_eq_ok.2 ⟨⟨⟩, ensurePolicySize_policy, guard_eq_ok.2 ⟨not_not.2 rfl, ?_⟩⟩
    refine bind_eq_ok.2 ⟨trajectoryCompositionPolicyText, elim_eq_ok.2 (Utf8.fromUTF8_bytes _), ?_⟩
    refine bind_eq_ok.2 ⟨peerHalfEnvelope, elim_eq_ok.2 reads, guard_eq_ok.2 ⟨not_not.2 rfl, guard_eq_ok.2 ⟨not_not.2 rfl, ?_⟩⟩⟩
    refine bind_eq_ok.2 ⟨⟨⟩, peerHalf_supported, bind_eq_ok.2 ⟨_, canonicalPolicyBytes_supported peerHalf_supported, ?_⟩⟩
    exact guard_eq_ok.2 ⟨not_not.2 rfl, bind_eq_ok.2 ⟨_, mapError_eq_ok.2 (peerHalf_graph regexes), rfl⟩⟩

end

section

variable {regexes : RegexEngine} {claims : List GovernanceClaim}

def halfDecision (claims : List GovernanceClaim) (claim : GovernanceClaim) : Decision :=
  if peerRelativeRankAtLeastPercentile (claims.countP fun peer => decide (peer.strength ≤ claim.strength)) claims.length 0.5 then .permit
  else .deny

theorem evaluate_peerHalf : evaluateNodeValidated regexes peerHalfNode claims =
    .ok (claims.map fun claim => ⟨claim.claimantId, halfDecision claims claim⟩) := by
  refine mapM_eq_ok.2 (List.forall₂_map_right_iff.2 (List.forall₂_same.2 fun claim _ => bind_eq_ok.2 ⟨halfDecision claims claim, ?_, rfl⟩))
  refine bind_eq_ok.2 ⟨_, evaluatePeerRelative_strength claim claims 0.5, ?_⟩
  unfold halfDecision
  split
  · rfl
  · rfl

theorem exists_peerHalf_traversal (validated : validateGovernanceClaims claims = .ok ⟨⟩) :
    ∃ final, traverseFinalDecisions regexes (loneGraph peerHalfNode) claims = .ok final ∧
      ∀ claim ∈ claims, final[claim.claimantId]? = some (halfDecision claims claim) := by
  obtain ⟨final, traversed, decided⟩ := @exists_lone_traversal peerHalfNode regexes claims _ validated evaluate_peerHalf (by
    rw [List.map_map]
    rfl)
  exact ⟨final, traversed, fun claim member => decided _ (List.mem_map_of_mem member)⟩

theorem green_peerHalf (validated : validateGovernanceClaims claims = .ok ⟨⟩)
    (permitted : ∀ claim ∈ claims, halfDecision claims claim = .permit) : Green regexes (loneGraph peerHalfNode) claims := by
  obtain ⟨final, traversed, decided⟩ := exists_peerHalf_traversal validated
  exact ⟨final, traversed, fun claim member => (decided claim member).trans (congrArg some (permitted claim member))⟩

theorem claimantWireId_visible (index : Nat) : isBlank (claimantWireId index) = false := by
  have word : "occurrence:".toList.all isWhitespace = false := by decide
  have split : (claimantWireId index).toList = "occurrence:".toList ++ (toString index).toList := by
    rw [← String.toList_append]
    rfl
  rw [isBlank, split, List.all_append, word, Bool.false_and]

theorem occurrenceClaim_valid {index : Nat} (small : index < maxEvents) : validateGovernanceClaim (occurrenceClaim index) = .ok ⟨⟩ := by
  have few : index + 1 < 2 ^ 53 := Nat.lt_of_le_of_lt small (by decide)
  obtain ⟨finite, positive, -⟩ := (FloatOrder.toFloat_normal (Nat.succ_pos index) few).positive
  refine guard_eq_ok.2 ⟨by simp [occurrenceClaim, claimantWireId_visible], guard_eq_ok.2 ⟨?_, ?_⟩⟩
  · rintro (infinite | low)
    · exact infinite finite
    · exact positive low
  · exact guard_eq_ok.2 ⟨by simp [occurrenceClaim], rfl⟩

theorem singleton_green {index : Nat} (small : index < maxEvents) : Green regexes (loneGraph peerHalfNode) [occurrenceClaim index] := by
  have few : index + 1 < 2 ^ 53 := Nat.lt_of_le_of_lt small (by decide)
  obtain ⟨-, -, same⟩ := (FloatOrder.toFloat_normal (Nat.succ_pos index) few).positive
  have whole : peerRelativeRankAtLeastPercentile 1 1 0.5 = true := rfl
  refine green_peerHalf ?_ ?_
  · exact validateGovernanceClaims_eq_ok.2 ⟨by simpa using occurrenceClaim_valid small, by simp⟩
  · intro claim member
    obtain rfl := List.mem_singleton.1 member
    have ranked : [occurrenceClaim index].countP (fun peer => decide (peer.strength ≤ (occurrenceClaim index).strength)) = 1 := by
      rw [List.countP_singleton]
      exact if_pos (decide_eq_true same)
    rw [halfDecision, ranked]
    exact if_pos whole

theorem pair_green : Green regexes (loneGraph peerHalfNode) [occurrenceClaim 0, occurrenceClaim 1] :=
  green_peerHalf rfl (by decide +kernel)

theorem triple_violation : Violation regexes (loneGraph peerHalfNode) [occurrenceClaim 0, occurrenceClaim 1, occurrenceClaim 2] 0 := by
  have validated : validateGovernanceClaims [occurrenceClaim 0, occurrenceClaim 1, occurrenceClaim 2] = .ok ⟨⟩ := rfl
  have denied : halfDecision [occurrenceClaim 0, occurrenceClaim 1, occurrenceClaim 2] (occurrenceClaim 0) = .deny := rfl
  obtain ⟨final, traversed, decided⟩ := @exists_peerHalf_traversal regexes _ validated
  exact ⟨final, traversed, occurrenceClaim 0, rfl, (decided _ List.mem_cons_self).trans (congrArg some denied), by simp⟩

end

section

variable {regexes : RegexEngine} {count : Nat} {receipts : List EventPolicyReceipt}

def occurrenceClaims (count : Nat) : List GovernanceClaim := (List.range count).map occurrenceClaim

theorem take_occurrenceClaims {length : Nat} (inside : length ≤ count) : (occurrenceClaims count).take length = occurrenceClaims length := by
  rw [occurrenceClaims, ← List.map_take, List.take_range, Nat.min_eq_left inside]
  rfl

theorem short_green {length : Nat} (positive : 0 < length) (short : length ≤ 2) (inside : length ≤ count) :
    Green regexes (loneGraph peerHalfNode) ((occurrenceClaims count).take length) := by
  rw [take_occurrenceClaims inside]
  obtain rfl | rfl : length = 1 ∨ length = 2 := by omega
  · exact singleton_green (by decide)
  · exact pair_green

def peerHalfVerdict (count : Nat) (firstEventId : String) : TemporalCompositionResult :=
  if count ≤ 2 then ⟨.allSingletonsPermitAndSafe count, greenPrefixes count⟩
  else ⟨.allSingletonsPermitAndEarliestViolation 2 3 0 firstEventId .deny, greenPrefixes 2 ++ [⟨3, .deny, some 0⟩]⟩

theorem peerHalf_verdict (few : count ≤ maxEvents) {firstEventId : String}
    (first : 0 < count → ∃ receipt, receipts[0]? = some receipt ∧ receipt.claim.eventId = firstEventId) :
    TemporalVerdict regexes (loneGraph peerHalfNode) (occurrenceClaims count) receipts (peerHalfVerdict count firstEventId) := by
  have length : (occurrenceClaims count).length = count := by simp [occurrenceClaims]
  have alone : ∀ claim ∈ occurrenceClaims count, Green regexes (loneGraph peerHalfNode) [claim] := by
    intro claim member
    obtain ⟨index, inside, rfl⟩ := List.mem_map.1 member
    exact singleton_green (Nat.lt_of_lt_of_le (List.mem_range.1 inside) few)
  unfold peerHalfVerdict
  by_cases short : count ≤ 2
  · rw [if_pos short]
    have safe := @TemporalVerdict.safe regexes (loneGraph peerHalfNode) (occurrenceClaims count) receipts alone (by
      intro size positive inside
      exact short_green positive (by omega) (by omega))
    rwa [length] at safe
  · rw [if_neg short]
    obtain ⟨receipt, atFirst, rfl⟩ := first (by omega)
    refine .violation alone (by omega) (fun size positive inside => short_green positive inside (by omega)) ?_ atFirst
    rw [take_occurrenceClaims (by omega)]
    exact triple_violation

end

end Legitimacy.Trajectory
