import Legitimacy.Trajectory.Replay

namespace Legitimacy.Trajectory

open Serde PrefixCode

def maxTrajectoryReplayAuthorityReceiptBytes : Nat := 64 * 1024
def maxTrajectoryReplayAuthorityTrustPolicyBytes : Nat := 16 * 1024
def receiptScanLimits : JsonScanLimits := ⟨5, 96, 96, maxTrajectoryReplayAuthorityReceiptBytes⟩
def trustPolicyScanLimits : JsonScanLimits := ⟨3, 24, 24, maxTrajectoryReplayAuthorityTrustPolicyBytes⟩

def anchorFormat : String := "legitimacy.trajectory.replay-authority-anchor"
def anchorVersion : String := "0"
def receiptFormat : String := "legitimacy.trajectory.replay-authority-receipt"
def receiptVersion : String := "0"
def trustPolicyFormat : String := "legitimacy.trajectory.replay-authority-trust-policy"
def trustPolicyVersion : String := "0"
def algorithmEd25519 : String := "ed25519"

inductive ReplayAuthorityErrorCode
  | inputTooLarge | jsonFraming | jsonSyntax | jsonShape | unsupportedFormat | invalidSigningKey | authorityRejected | serialization
  deriving DecidableEq

def mapReplayError : ReplayErrorCode → ReplayAuthorityErrorCode
  | .inputTooLarge => .inputTooLarge
  | .jsonFraming => .jsonFraming
  | .jsonSyntax => .jsonSyntax
  | .jsonShape => .jsonShape
  | .candidateMismatch => .jsonShape
  | .authorityBindingMismatch => .jsonShape
  | .unsupportedFormat => .unsupportedFormat
  | .serialization => .serialization

/-- A fixed number of bytes. -/
structure Bytes (size : Nat) where
  bytes : List UInt8
  length_eq : bytes.length = size
  deriving DecidableEq

/-- The signatures of the `ed25519_dalek` crate. -/
structure SignatureScheme where
  VerifyingKey : Type
  /-- `SigningKey::verifying_key` as bytes. -/
  verifyingKeyBytes : Bytes 32 → Bytes 32
  /-- `VerifyingKey::from_bytes`. -/
  fromBytes : Bytes 32 → Option VerifyingKey
  sign : Bytes 32 → List UInt8 → Bytes 64
  verifyStrict : VerifyingKey → List UInt8 → Bytes 64 → Bool

/-- A key accepts what it signed. -/
def SignatureScheme.Correct (scheme : SignatureScheme) : Prop :=
  ∀ secret key message, scheme.fromBytes (scheme.verifyingKeyBytes secret) = some key →
    scheme.verifyStrict key message (scheme.sign secret message) = true

section

def encodePrefixedHex (bytes : List UInt8) : String := "ed25519:" ++ Hex.encode bytes

def hexNibble (byte : UInt8) : Except ReplayAuthorityErrorCode UInt8 :=
  if 48 ≤ byte && byte ≤ 57 then .ok (byte - 48)
  else if 97 ≤ byte && byte ≤ 102 then .ok (byte - 97 + 10)
  else .error .jsonShape

def decodePairs : List UInt8 → Except ReplayAuthorityErrorCode (List UInt8)
  | high :: low :: rest => do
    let high ← hexNibble high
    let low ← hexNibble low
    let bytes ← decodePairs rest
    .ok ((high <<< 4 ||| low) :: bytes)
  | _ => .ok []

def decodePrefixedHex (size : Nat) (value : String) : Except ReplayAuthorityErrorCode (Bytes size) := do
  let hex ← (stripPrefix "ed25519:" value).elim (.error .jsonShape) .ok
  if hex.utf8ByteSize ≠ size * 2 then .error .jsonShape
  else
    let output ← decodePairs (Utf8.bytes hex)
    if length : output.length = size then .ok ⟨output, length⟩ else .error .jsonShape

end

/-- The tuple that the replay authority signs. Its format and version fields are always the constants. -/
structure ReplayAuthorityAnchor where
  schema : ReplayArtifactBinding
  adapter : ReplayArtifactBinding
  policy : ReplayArtifactBinding
  rawCapture : ReplayRawCaptureSeal
  trajectoryDigest : ReplayDigest
  recordCount : UInt64
  genesisHead : ReplayDigest
  expectedFinalHead : ReplayDigest
  deriving DecidableEq

def ReplayAuthorityAnchor.fromReplayCandidate (candidate : TrajectoryReplayCandidate) : ReplayAuthorityAnchor where
  schema := candidate.schema
  adapter := candidate.adapter
  policy := candidate.policy
  rawCapture := candidate.rawCapture
  trajectoryDigest := candidate.trajectoryDigest
  recordCount := candidate.recordCount
  genesisHead := candidate.genesisHead
  expectedFinalHead := candidate.finalHead

/-- Its format, version and algorithm fields are always the constants. -/
structure SignedReplayAuthorityReceipt where
  issuer : String
  keyId : String
  authorityEpoch : UInt64
  anchor : ReplayAuthorityAnchor
  signature : String
  deriving DecidableEq

structure UnverifiedReplayAuthorityReceipt where
  receipt : SignedReplayAuthorityReceipt
  signature : Bytes 64

structure ReplayAuthorityTrustPolicy (scheme : SignatureScheme) where
  issuer : String
  algorithm : String
  keyId : String
  acceptedAuthorityEpoch : UInt64
  verificationKey : scheme.VerifyingKey

structure VerifiedReplayAuthorityReceipt where
  receipt : SignedReplayAuthorityReceipt

structure VerifiedTrajectoryReplay where
  replay : TrajectoryReplayCandidate
  authorityReceipt : SignedReplayAuthorityReceipt

section

def signatureMessage (issuer algorithm keyId : String) (authorityEpoch : UInt64) (anchor : ReplayAuthorityAnchor) : List UInt8 :=
  Utf8.bytes "legitimacy.trajectory.replay-authority-receipt.signature.v0\x00" ++ putString receiptFormat ++ putString receiptVersion ++
    putString issuer ++ putString algorithm ++ putString keyId ++ bigEndian authorityEpoch ++
    [anchorFormat, anchorVersion, replayFormat, replayVersion, anchor.schema.identity, anchor.schema.version, anchor.schema.hash.text,
      anchor.adapter.identity, anchor.adapter.version, anchor.adapter.hash.text, anchor.policy.identity, anchor.policy.version,
      anchor.policy.hash.text].flatMap putString ++
    bigEndian anchor.rawCapture.recordCount ++ putString anchor.rawCapture.digest.text ++ putString anchor.trajectoryDigest.text ++
    bigEndian anchor.recordCount ++ putString anchor.genesisHead.text ++ putString anchor.expectedFinalHead.text

def SignedReplayAuthorityReceipt.signatureMessage (receipt : SignedReplayAuthorityReceipt) : List UInt8 :=
  Trajectory.signatureMessage receipt.issuer algorithmEd25519 receipt.keyId receipt.authorityEpoch receipt.anchor

end

section

def validateAuthorityName (value : String) : Except ReplayAuthorityErrorCode Unit :=
  if value = "" || 128 < value.utf8ByteSize ||
      !allBytes isLowerName (fun byte => isLowerName byte || byte == 46 || byte == 45 || byte == 95) (Utf8.bytes value) then
    .error .jsonShape
  else .ok ⟨⟩

/-- Fails with no code where building the candidate would panic. -/
def issueTrajectoryReplayAuthorityReceipt {host : Host} (scheme : SignatureScheme) (validated : ValidatedTrajectoryTrace host)
    (signingKey : Bytes 32) (issuer keyId : String) (authorityEpoch : UInt64) :
    Except (Option ReplayAuthorityErrorCode) SignedReplayAuthorityReceipt := do
  (validateAuthorityName issuer).mapError some
  (validateAuthorityName keyId).mapError some
  if authorityEpoch = 0 then .error (some .jsonShape)
  else
    let recomputed ← (trajectoryReplayCandidate validated).elim (.error none) .ok
    let anchor := ReplayAuthorityAnchor.fromReplayCandidate recomputed
    let message := signatureMessage issuer algorithmEd25519 keyId authorityEpoch anchor
    .ok { issuer, keyId, authorityEpoch, anchor, signature := encodePrefixedHex (scheme.sign signingKey message).bytes }

def verifyReplayAuthorityReceipt {scheme : SignatureScheme} (receipt : UnverifiedReplayAuthorityReceipt)
    (policy : ReplayAuthorityTrustPolicy scheme) : Except ReplayAuthorityErrorCode VerifiedReplayAuthorityReceipt :=
  if receipt.receipt.issuer ≠ policy.issuer || algorithmEd25519 ≠ policy.algorithm || receipt.receipt.keyId ≠ policy.keyId ||
      receipt.receipt.authorityEpoch ≠ policy.acceptedAuthorityEpoch ||
      !scheme.verifyStrict policy.verificationKey receipt.receipt.signatureMessage receipt.signature then
    .error .authorityRejected
  else .ok ⟨receipt.receipt⟩

/-- Fails with no code where building the candidate would panic. -/
def verifyTrajectoryReplay {host : Host} (validated : ValidatedTrajectoryTrace host) (supplied : InspectedTrajectoryReplayCandidate)
    (authorityReceipt : VerifiedReplayAuthorityReceipt) : Except (Option ReplayErrorCode) VerifiedTrajectoryReplay := do
  let recomputed ← (trajectoryReplayCandidate validated).elim (.error none) .ok
  if supplied.candidate ≠ recomputed then .error (some .candidateMismatch)
  else if authorityReceipt.receipt.anchor ≠ .fromReplayCandidate recomputed then .error (some .authorityBindingMismatch)
  else .ok ⟨recomputed, authorityReceipt.receipt⟩

end

section

def ReplayAuthorityAnchor.json (anchor : ReplayAuthorityAnchor) : Json :=
  .obj [("anchor_format", .str anchorFormat), ("anchor_version", .str anchorVersion), ("replay_format", .str replayFormat),
    ("replay_version", .str replayVersion), ("schema", anchor.schema.json), ("adapter", anchor.adapter.json),
    ("policy", anchor.policy.json), ("raw_capture", anchor.rawCapture.json), ("trajectory_digest", anchor.trajectoryDigest.json),
    ("record_count", u64 anchor.recordCount), ("genesis_head", anchor.genesisHead.json),
    ("expected_final_head", anchor.expectedFinalHead.json)]

def SignedReplayAuthorityReceipt.json (receipt : SignedReplayAuthorityReceipt) : Json :=
  .obj [("receipt_format", .str receiptFormat), ("receipt_version", .str receiptVersion), ("issuer", .str receipt.issuer),
    ("algorithm", .str algorithmEd25519), ("key_id", .str receipt.keyId), ("authority_epoch", u64 receipt.authorityEpoch),
    ("anchor", receipt.anchor.json), ("signature", .str receipt.signature)]

def SignedReplayAuthorityReceipt.toJsonLine (floatText : Float → String) (receipt : SignedReplayAuthorityReceipt) :
    Except ReplayAuthorityErrorCode (List UInt8) :=
  (serializeJsonLine floatText receipt.json maxTrajectoryReplayAuthorityReceiptBytes).mapError mapReplayError

end

section

structure ReplayAuthorityAnchorWire where
  anchorFormat : String
  anchorVersion : String
  replayFormat : String
  replayVersion : String
  schema : ArtifactBinding
  adapter : ArtifactBinding
  policy : ArtifactBinding
  rawCapture : RawCaptureSeal
  trajectoryDigest : String
  recordCount : UInt64
  genesisHead : String
  expectedFinalHead : String

structure ReplayAuthorityReceiptWire where
  receiptFormat : String
  receiptVersion : String
  issuer : String
  algorithm : String
  keyId : String
  authorityEpoch : UInt64
  anchor : ReplayAuthorityAnchorWire
  signature : String

structure ReplayAuthorityTrustPolicyWire where
  trustPolicyFormat : String
  trustPolicyVersion : String
  issuer : String
  algorithm : String
  keyId : String
  acceptedAuthorityEpoch : UInt64
  verificationKey : String

def decodeAnchor (json : Json) : Option ReplayAuthorityAnchorWire := do
  match ← structFields ["anchor_format", "anchor_version", "replay_format", "replay_version", "schema", "adapter", "policy", "raw_capture",
    "trajectory_digest", "record_count", "genesis_head", "expected_final_head"] json with
  | [some anchorFormat, some anchorVersion, some replayFormat, some replayVersion, some schema, some adapter, some policy,
      some rawCapture, some trajectoryDigest, some recordCount, some genesisHead, some expectedFinalHead] =>
    some {
      anchorFormat := ← decodeString anchorFormat
      anchorVersion := ← decodeString anchorVersion
      replayFormat := ← decodeString replayFormat
      replayVersion := ← decodeString replayVersion
      schema := ← decodeBinding schema
      adapter := ← decodeBinding adapter
      policy := ← decodeBinding policy
      rawCapture := ← decodeSeal rawCapture
      trajectoryDigest := ← decodeString trajectoryDigest
      recordCount := ← decodeU64 recordCount
      genesisHead := ← decodeString genesisHead
      expectedFinalHead := ← decodeString expectedFinalHead }
  | _ => none

def decodeReceipt (json : Json) : Option ReplayAuthorityReceiptWire := do
  match ← structFields ["receipt_format", "receipt_version", "issuer", "algorithm", "key_id", "authority_epoch", "anchor", "signature"]
    json with
  | [some receiptFormat, some receiptVersion, some issuer, some algorithm, some keyId, some authorityEpoch, some anchor, some signature] =>
    some {
      receiptFormat := ← decodeString receiptFormat
      receiptVersion := ← decodeString receiptVersion
      issuer := ← decodeString issuer
      algorithm := ← decodeString algorithm
      keyId := ← decodeString keyId
      authorityEpoch := ← decodeU64 authorityEpoch
      anchor := ← decodeAnchor anchor
      signature := ← decodeString signature }
  | _ => none

def decodeTrustPolicy (json : Json) : Option ReplayAuthorityTrustPolicyWire := do
  match ← structFields ["trust_policy_format", "trust_policy_version", "issuer", "algorithm", "key_id", "accepted_authority_epoch",
    "verification_key"] json with
  | [some trustPolicyFormat, some trustPolicyVersion, some issuer, some algorithm, some keyId, some acceptedAuthorityEpoch,
      some verificationKey] =>
    some {
      trustPolicyFormat := ← decodeString trustPolicyFormat
      trustPolicyVersion := ← decodeString trustPolicyVersion
      issuer := ← decodeString issuer
      algorithm := ← decodeString algorithm
      keyId := ← decodeString keyId
      acceptedAuthorityEpoch := ← decodeU64 acceptedAuthorityEpoch
      verificationKey := ← decodeString verificationKey }
  | _ => none

def ReplayAuthorityAnchorWire.tryIntoAnchor (wire : ReplayAuthorityAnchorWire) :
    Except ReplayAuthorityErrorCode ReplayAuthorityAnchor := do
  if wire.anchorFormat ≠ Trajectory.anchorFormat || wire.anchorVersion ≠ Trajectory.anchorVersion ||
      wire.replayFormat ≠ Trajectory.replayFormat || wire.replayVersion ≠ Trajectory.replayVersion then .error .unsupportedFormat
  else
    let rawCapture ← (parseCapture wire.rawCapture).mapError mapReplayError
    if wire.recordCount = 0 || .ofNat maxEvents < wire.recordCount || rawCapture.recordCount ≠ wire.recordCount then .error .jsonShape
    else
      let schema ← (parseBinding wire.schema).mapError mapReplayError
      let adapter ← (parseBinding wire.adapter).mapError mapReplayError
      let policy ← (parseBinding wire.policy).mapError mapReplayError
      let trajectoryDigest ← (ReplayDigest.parse wire.trajectoryDigest).mapError mapReplayError
      let genesisHead ← (ReplayDigest.parse wire.genesisHead).mapError mapReplayError
      let expectedFinalHead ← (ReplayDigest.parse wire.expectedFinalHead).mapError mapReplayError
      .ok { schema, adapter, policy, rawCapture, trajectoryDigest, recordCount := wire.recordCount, genesisHead, expectedFinalHead }

def ReplayAuthorityReceiptWire.tryIntoUnverified (wire : ReplayAuthorityReceiptWire) :
    Except ReplayAuthorityErrorCode UnverifiedReplayAuthorityReceipt := do
  if wire.receiptFormat ≠ Trajectory.receiptFormat || wire.receiptVersion ≠ Trajectory.receiptVersion then .error .unsupportedFormat
  else
    validateAuthorityName wire.issuer
    validateAuthorityName wire.keyId
    if wire.algorithm ≠ algorithmEd25519 || wire.authorityEpoch = 0 then .error .unsupportedFormat
    else
      let signature ← decodePrefixedHex 64 wire.signature
      let anchor ← wire.anchor.tryIntoAnchor
      .ok ⟨⟨wire.issuer, wire.keyId, wire.authorityEpoch, anchor, wire.signature⟩, signature⟩

def ReplayAuthorityTrustPolicyWire.tryIntoPolicy (scheme : SignatureScheme) (wire : ReplayAuthorityTrustPolicyWire) :
    Except ReplayAuthorityErrorCode (ReplayAuthorityTrustPolicy scheme) := do
  if wire.trustPolicyFormat ≠ Trajectory.trustPolicyFormat || wire.trustPolicyVersion ≠ Trajectory.trustPolicyVersion ||
      wire.algorithm ≠ algorithmEd25519 then .error .unsupportedFormat
  else
    validateAuthorityName wire.issuer
    validateAuthorityName wire.keyId
    if wire.acceptedAuthorityEpoch = 0 then .error .jsonShape
    else
      let keyBytes ← decodePrefixedHex 32 wire.verificationKey
      let verificationKey ← (scheme.fromBytes keyBytes).elim (.error .jsonShape) .ok
      .ok ⟨wire.issuer, wire.algorithm, wire.keyId, wire.acceptedAuthorityEpoch, verificationKey⟩

def UnverifiedReplayAuthorityReceipt.fromJsonSlice (reader : JsonReader) (input : List UInt8) :
    Except ReplayAuthorityErrorCode UnverifiedReplayAuthorityReceipt := do
  let body ← (preflightJsonLine reader input maxTrajectoryReplayAuthorityReceiptBytes receiptScanLimits).mapError mapReplayError
  let wire ← ((reader.parse body).bind decodeReceipt).elim (.error .jsonShape) .ok
  wire.tryIntoUnverified

def ReplayAuthorityTrustPolicy.fromJsonSlice (scheme : SignatureScheme) (reader : JsonReader) (input : List UInt8) :
    Except ReplayAuthorityErrorCode (ReplayAuthorityTrustPolicy scheme) := do
  let body ← (preflightJsonLine reader input maxTrajectoryReplayAuthorityTrustPolicyBytes trustPolicyScanLimits).mapError mapReplayError
  let wire ← ((reader.parse body).bind decodeTrustPolicy).elim (.error .jsonShape) .ok
  wire.tryIntoPolicy scheme

end

end Legitimacy.Trajectory
