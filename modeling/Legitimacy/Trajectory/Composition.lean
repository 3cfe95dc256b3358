import Legitimacy.GraphPolicy
import Legitimacy.Traverse
import Legitimacy.Trajectory.Authority

namespace Legitimacy.Trajectory

open Serde

def trajectoryCompositionPolicyFormat : String := "legitimacy.trajectory-composition.policy"
def trajectoryCompositionPolicyFormatVersion : String := "0"
def trajectoryCompositionPolicyId : String := "policy.trajectory-composition.peer-half"
def trajectoryCompositionPolicyVersion : String := "0"
def occurrenceEncoderId : String := "legitimacy.trajectory-composition.occurrence-index-strength"
def occurrenceEncoderVersion : String := "0"
def historicalPropertyId : String := "legitimacy.trajectory-composition.every-observed-prefix-green"
def historicalPropertyVersion : String := "0"
def maxTrajectoryCompositionPolicyBytes : Nat := 691
def trajectoryCompositionResultFormat : String := "legitimacy.trajectory-composition.result"
def trajectoryCompositionResultVersion : String := "0"
def graphName : String := "trajectory-composition-peer-half"
def graphVersion : String := "0"
def peerHalfNodeId : String := "peer-half"

/-- The file `policy.toml` that the source includes, line by line. -/
def trajectoryCompositionPolicyText : String :=
  String.join [
    "policy_format = \"legitimacy.trajectory-composition.policy\"\n",
    "policy_format_version = \"0\"\n",
    "policy_identity = \"policy.trajectory-composition.peer-half\"\n",
    "policy_version = \"0\"\n",
    "occurrence_encoder_identity = \"legitimacy.trajectory-composition.occurrence-index-strength\"\n",
    "occurrence_encoder_version = \"0\"\n",
    "historical_property_identity = \"legitimacy.trajectory-composition.every-observed-prefix-green\"\n",
    "historical_property_version = \"0\"\n",
    "\n[graph]\n",
    "name = \"trajectory-composition-peer-half\"\n",
    "version = \"0\"\n",
    "\n[[nodes]]\n",
    "id = \"peer-half\"\n",
    "type = \"binary\"\n",
    "name = \"peer-half\"\n",
    "default = \"deny\"\n",
    "combination = \"first_match\"\n",
    "\n[[nodes.gates]]\n",
    "type = \"peer_relative\"\n",
    "field = \"strength\"\n",
    "percentile = 0.5\n",
    "decision = \"permit\"\n"]

def trajectoryCompositionPolicyBytes : List UInt8 := Utf8.bytes trajectoryCompositionPolicyText

inductive TrajectoryCompositionErrorCode
  | policyTooLarge | replayPairMismatch | policyDigestMismatch | policyIdentityMismatch | policyVersionMismatch | policyEncoding
  | policyShape | unsupportedPolicyProfile | nonCanonicalPolicy | graphCompilation | eventReplayMismatch | occurrenceOverflow
  | graphEvaluation | nonBinaryDecision
  deriving DecidableEq

structure TrajectoryCompositionPolicyEnvelope where
  policyFormat : String
  policyFormatVersion : String
  policyIdentity : String
  policyVersion : String
  occurrenceEncoderIdentity : String
  occurrenceEncoderVersion : String
  historicalPropertyIdentity : String
  historicalPropertyVersion : String
  graph : GraphPolicySpec

/-- `toml::from_str`: reads a text as an envelope or refuses it. -/
abbrev EnvelopeReader : Type := String → Option TrajectoryCompositionPolicyEnvelope

structure ExecutableTrajectoryCompositionPolicy where
  canonicalBytes : List UInt8
  artifactDigest : String
  graph : GovernanceGraph

inductive BinaryPolicyDecision
  | permit | deny
  deriving DecidableEq

/-- The indices and numerators count events, of which there are at most `maxEvents`. -/
structure EncodedOccurrenceClaim where
  occurrenceIndex : Nat
  claimantWireId : String
  strengthNumerator : Nat
  strengthDenominator : Nat
  eventId : String
  kind : NormalizedEventKind
  sourceItemId : Option String
  rawRecordDigest : String
  canonicalEventDigest : String
  deriving DecidableEq

structure EventPolicyReceipt where
  claim : EncodedOccurrenceClaim
  singletonDecision : BinaryPolicyDecision
  deriving DecidableEq

structure ObservedPrefixReceipt where
  prefixLength : Nat
  decision : BinaryPolicyDecision
  leastDeniedOccurrenceIndex : Option Nat
  deriving DecidableEq

inductive TemporalCompositionClassification
  | localFailure (occurrenceIndex : Nat) (eventId : String) (decision : BinaryPolicyDecision)
  | allSingletonsPermitAndSafe (checkedPrefixCount : Nat)
  | allSingletonsPermitAndEarliestViolation (transitionIndex prefixLength deniedOccurrenceIndex : Nat) (deniedEventId : String)
    (decision : BinaryPolicyDecision)
  deriving DecidableEq

structure TemporalCompositionResult where
  classification : TemporalCompositionClassification
  observedPrefixes : List ObservedPrefixReceipt
  deriving DecidableEq

structure TrajectoryCompositionPolicyArtifact where
  identity : String
  version : String
  artifactDigest : String
  canonicalBytes : List UInt8
  occurrenceEncoderIdentity : String
  occurrenceEncoderVersion : String
  historicalPropertyIdentity : String
  historicalPropertyVersion : String
  deriving DecidableEq

structure TrajectoryCompositionResult where
  resultFormat : String
  resultVersion : String
  trajectoryDigest : String
  replayFinalHead : String
  policy : TrajectoryCompositionPolicyArtifact
  eventReceipts : List EventPolicyReceipt
  temporal : TemporalCompositionResult
  deriving DecidableEq

structure PreparedTrajectoryComposition where
  policy : ExecutableTrajectoryCompositionPolicy
  trajectoryDigest : String
  replayFinalHead : String
  claims : List GovernanceClaim
  receipts : List EventPolicyReceipt

section

def ensurePolicySize (exactBytes : List UInt8) : Except TrajectoryCompositionErrorCode Unit :=
  if maxTrajectoryCompositionPolicyBytes < exactBytes.length then .error .policyTooLarge else .ok ⟨⟩

def supportedEnvelope (envelope : TrajectoryCompositionPolicyEnvelope) : Bool :=
  envelope.policyFormat = trajectoryCompositionPolicyFormat && envelope.policyFormatVersion = trajectoryCompositionPolicyFormatVersion &&
    envelope.policyIdentity = trajectoryCompositionPolicyId && envelope.policyVersion = trajectoryCompositionPolicyVersion &&
    envelope.occurrenceEncoderIdentity = occurrenceEncoderId && envelope.occurrenceEncoderVersion = occurrenceEncoderVersion &&
    envelope.historicalPropertyIdentity = historicalPropertyId && envelope.historicalPropertyVersion = historicalPropertyVersion &&
    envelope.graph.graph.name = graphName && envelope.graph.graph.version = graphVersion && envelope.graph.edges.isEmpty &&
    envelope.graph.nodes.length = 1

def supportedNode (node : NodeSpec) : Bool :=
  node.id = peerHalfNodeId && node.nodeType = "binary" && node.name = some peerHalfNodeId && node.default = some "deny" &&
    node.combination = some "first_match" && node.threshold.isNone && node.field.isNone && node.gates.length = 1

def supportedGate (gate : GateSpec) : Bool :=
  gate.gateType = "peer_relative" && gate.pattern.isNone && gate.value.isNone && gate.regex.isNone && gate.field = some "strength" &&
    gate.min.isNone && gate.percentile == some 0.5 && gate.decision = "permit"

def validateRestrictedProfile (envelope : TrajectoryCompositionPolicyEnvelope) : Except TrajectoryCompositionErrorCode Unit := do
  if !supportedEnvelope envelope then .error .unsupportedPolicyProfile
  else
    let node ← envelope.graph.nodes.head?.elim (.error .unsupportedPolicyProfile) .ok
    if !supportedNode node then .error .unsupportedPolicyProfile
    else
      let gate ← node.gates.head?.elim (.error .unsupportedPolicyProfile) .ok
      if !supportedGate gate then .error .unsupportedPolicyProfile else .ok ⟨⟩

def quotedAssignment (key value : String) : String := key ++ " = \"" ++ value ++ "\"\n"

def canonicalPolicyText (envelope : TrajectoryCompositionPolicyEnvelope) (node : NodeSpec) (gate : GateSpec) : String :=
  String.join [
    quotedAssignment "policy_format" envelope.policyFormat,
    quotedAssignment "policy_format_version" envelope.policyFormatVersion,
    quotedAssignment "policy_identity" envelope.policyIdentity,
    quotedAssignment "policy_version" envelope.policyVersion,
    quotedAssignment "occurrence_encoder_identity" envelope.occurrenceEncoderIdentity,
    quotedAssignment "occurrence_encoder_version" envelope.occurrenceEncoderVersion,
    quotedAssignment "historical_property_identity" envelope.historicalPropertyIdentity,
    quotedAssignment "historical_property_version" envelope.historicalPropertyVersion,
    "\n[graph]\n",
    quotedAssignment "name" envelope.graph.graph.name,
    quotedAssignment "version" envelope.graph.graph.version,
    "\n[[nodes]]\n",
    quotedAssignment "id" node.id,
    quotedAssignment "type" node.nodeType,
    quotedAssignment "name" (node.name.getD ""),
    quotedAssignment "default" (node.default.getD ""),
    quotedAssignment "combination" (node.combination.getD ""),
    "\n[[nodes.gates]]\n",
    quotedAssignment "type" gate.gateType,
    quotedAssignment "field" (gate.field.getD ""),
    "percentile = 0.5\n",
    quotedAssignment "decision" gate.decision]

def canonicalPolicyBytes (envelope : TrajectoryCompositionPolicyEnvelope) : Except TrajectoryCompositionErrorCode (List UInt8) := do
  let node ← envelope.graph.nodes.head?.elim (.error .unsupportedPolicyProfile) .ok
  let gate ← node.gates.head?.elim (.error .unsupportedPolicyProfile) .ok
  .ok (Utf8.bytes (canonicalPolicyText envelope node gate))

def loadTrajectoryCompositionPolicy (sha256 : List UInt8 → Digest) (toml : EnvelopeReader) (regexes : RegexEngine)
    (exactBytes : List UInt8) (binding : ArtifactBinding) :
    Except TrajectoryCompositionErrorCode ExecutableTrajectoryCompositionPolicy := do
  ensurePolicySize exactBytes
  let digest := artifactDigest sha256 exactBytes
  if digest ≠ binding.hash then .error .policyDigestMismatch
  else
    let input ← (String.fromUTF8? exactBytes.toByteArray).elim (.error .policyEncoding) .ok
    let envelope ← (toml input).elim (.error .policyShape) .ok
    if envelope.policyIdentity ≠ binding.identity then .error .policyIdentityMismatch
    else if envelope.policyVersion ≠ binding.version then .error .policyVersionMismatch
    else
      validateRestrictedProfile envelope
      let canonical ← canonicalPolicyBytes envelope
      if canonical ≠ exactBytes then .error .nonCanonicalPolicy
      else
        let graph ← (envelope.graph.tryIntoGraph "trajectory composition policy v0" regexes).mapError fun _ => .graphCompilation
        .ok ⟨canonical, digest, graph⟩

end

section

def BinaryPolicyDecision.tryFrom : Decision → Except TrajectoryCompositionErrorCode BinaryPolicyDecision
  | .permit => .ok .permit
  | .deny => .ok .deny
  | .escalate => .error .nonBinaryDecision

def claimantWireId (occurrenceIndex : Nat) : String := s!"occurrence:{occurrenceIndex}"

def occurrenceClaim (occurrenceIndex : Nat) : GovernanceClaim where
  claimantId := claimantWireId occurrenceIndex
  strength := (occurrenceIndex + 1).toUInt64.toFloat
  priorityClass := none
  path := none
  action := none
  content := none
  metrics := ∅

variable (regexes : RegexEngine) (graph : GovernanceGraph)

def decideSingleton (claim : GovernanceClaim) : Except TrajectoryCompositionErrorCode BinaryPolicyDecision := do
  let decisions ← (traverseFinalDecisions regexes graph [claim]).mapError fun _ => .graphEvaluation
  let decision ← (decisions[claim.claimantId]?).elim (.error .graphEvaluation) .ok
  BinaryPolicyDecision.tryFrom decision

def presentValue {α : Type} (field : Option α) : Except TrajectoryCompositionErrorCode α := field.elim (.error .eventReplayMismatch) .ok

def presentSource : Option (Evidenced String) → Except TrajectoryCompositionErrorCode (Option String)
  | some source => (presentValue source.value).map some
  | none => .ok none

def prepareOccurrence (entry : (AgentActionEvent × ReplayRecord) × Nat) :
    Except TrajectoryCompositionErrorCode (GovernanceClaim × EventPolicyReceipt) := do
  let ((event, replayRecord), occurrenceIndex) := entry
  let strengthNumerator := occurrenceIndex + 1
  if maxEvents < strengthNumerator then .error .occurrenceOverflow
  else
    let eventId ← presentValue event.eventId.value
    let sequenceIndex ← presentValue event.sequenceIndex.value
    let kind ← presentValue event.kind.value
    let sourceItemId ← presentSource event.sourceItemId
    if sequenceIndex ≠ .ofNat occurrenceIndex ∨ replayRecord.sequenceIndex ≠ .ofNat occurrenceIndex ∨ replayRecord.eventId ≠ eventId ∨
        replayRecord.rawRecordDigest.text ≠ event.rawRecord.digest then
      .error .eventReplayMismatch
    else
      let graphClaim := occurrenceClaim occurrenceIndex
      let singletonDecision ← decideSingleton regexes graph graphClaim
      let claim := {
        occurrenceIndex
        claimantWireId := claimantWireId occurrenceIndex
        strengthNumerator
        strengthDenominator := 1
        eventId
        kind
        sourceItemId
        rawRecordDigest := event.rawRecord.digest
        canonicalEventDigest := replayRecord.canonicalEventDigest.text }
      .ok (graphClaim, ⟨claim, singletonDecision⟩)

end

section

variable (regexes : RegexEngine) (graph : GovernanceGraph)

/-- The loop over the claims of a prefix from an index on: the first denied one, unless one before it has no binary decision. -/
def firstDenied (decisions : BTreeMap ClaimantId Decision) (index : Nat) :
    List GovernanceClaim → Except TrajectoryCompositionErrorCode (Option Nat)
  | [] => .ok none
  | claim :: rest => do
    let decision ← (decisions[claim.claimantId]?).elim (.error .graphEvaluation) .ok
    match decision with
    | .permit => firstDenied decisions (index + 1) rest
    | .deny => .ok (some index)
    | .escalate => .error .nonBinaryDecision

def leastDeniedOccurrence (claims : List GovernanceClaim) (decisions : BTreeMap ClaimantId Decision) :
    Except TrajectoryCompositionErrorCode (Option Nat) := do
  match ← firstDenied decisions 0 claims with
  | some index => .ok (some index)
  | none => if decisions.size ≠ claims.length then .error .graphEvaluation else .ok none

/-- The first occurrence that the graph denies within a prefix. -/
def observePrefix (claims : List GovernanceClaim) : Except TrajectoryCompositionErrorCode (Option Nat) := do
  let decisions ← (traverseFinalDecisions regexes graph claims).mapError fun _ => .graphEvaluation
  leastDeniedOccurrence claims decisions

/-- The loop over the lengths of the prefixes, which stops at the first prefix that denies an occurrence. -/
def observePrefixes (claims : List GovernanceClaim) (receipts : List EventPolicyReceipt) (observed : List ObservedPrefixReceipt) :
    List Nat → Except TrajectoryCompositionErrorCode TemporalCompositionResult
  | [] => .ok ⟨.allSingletonsPermitAndSafe claims.length, observed⟩
  | prefixLength :: longer => do
    let leastDenied ← observePrefix regexes graph (claims.take prefixLength)
    let observed := observed ++ [⟨prefixLength, if leastDenied.isSome then .deny else .permit, leastDenied⟩]
    match leastDenied with
    | some deniedOccurrenceIndex =>
      let deniedReceipt ← (receipts[deniedOccurrenceIndex]?).elim (.error .graphEvaluation) .ok
      .ok ⟨.allSingletonsPermitAndEarliestViolation (prefixLength - 1) prefixLength deniedOccurrenceIndex deniedReceipt.claim.eventId .deny,
        observed⟩
    | none => observePrefixes claims receipts observed longer

def classifyTemporal (prepared : PreparedTrajectoryComposition) : Except TrajectoryCompositionErrorCode TemporalCompositionResult :=
  match prepared.receipts.find? fun receipt => receipt.singletonDecision = .deny with
  | some receipt => .ok ⟨.localFailure receipt.claim.occurrenceIndex receipt.claim.eventId .deny, []⟩
  | none => observePrefixes regexes prepared.policy.graph prepared.claims prepared.receipts [] (.range' 1 prepared.claims.length)

end

section

variable {host : Host} (toml : EnvelopeReader) (regexes : RegexEngine)

def prepareReplayBoundComposition (validated : ValidatedTrajectoryTrace host) (verified : VerifiedTrajectoryReplay)
    (exactPolicyBytes : List UInt8) : Except TrajectoryCompositionErrorCode PreparedTrajectoryComposition := do
  ensurePolicySize exactPolicyBytes
  if trajectoryReplayCandidate validated ≠ some verified.replay then .error .replayPairMismatch
  else
    let trace := validated.trace
    let policy ← loadTrajectoryCompositionPolicy host.sha256 toml regexes exactPolicyBytes trace.policy
    let replay := verified.replay
    if trace.events.length ≠ replay.records.length then .error .eventReplayMismatch
    else
      let occurrences ← (trace.events.zip replay.records).zipIdx.mapM (prepareOccurrence regexes policy.graph)
      .ok {
        policy
        trajectoryDigest := replay.trajectoryDigest.text
        replayFinalHead := replay.finalHead.text
        claims := occurrences.map Prod.fst
        receipts := occurrences.map Prod.snd }

def evaluateReplayBoundComposition (validated : ValidatedTrajectoryTrace host) (verified : VerifiedTrajectoryReplay)
    (exactPolicyBytes : List UInt8) : Except TrajectoryCompositionErrorCode TrajectoryCompositionResult := do
  let prepared ← prepareReplayBoundComposition toml regexes validated verified exactPolicyBytes
  let temporal ← classifyTemporal regexes prepared
  .ok {
    resultFormat := trajectoryCompositionResultFormat
    resultVersion := trajectoryCompositionResultVersion
    trajectoryDigest := prepared.trajectoryDigest
    replayFinalHead := prepared.replayFinalHead
    policy := {
      identity := trajectoryCompositionPolicyId
      version := trajectoryCompositionPolicyVersion
      artifactDigest := prepared.policy.artifactDigest
      canonicalBytes := prepared.policy.canonicalBytes
      occurrenceEncoderIdentity := occurrenceEncoderId
      occurrenceEncoderVersion := occurrenceEncoderVersion
      historicalPropertyIdentity := historicalPropertyId
      historicalPropertyVersion := historicalPropertyVersion }
    eventReceipts := prepared.receipts
    temporal }

end

end Legitimacy.Trajectory
