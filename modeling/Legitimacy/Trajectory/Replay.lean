import Legitimacy.Trajectory.Names

namespace Legitimacy.Trajectory

open Serde PrefixCode

def replayFormat : String := "legitimacy.trajectory.replay"
def replayVersion : String := "0"
def maxTrajectoryReplayBytes : Nat := 16 * 1024 * 1024

def replayScanLimits : JsonScanLimits := ⟨8, 8 + maxEvents * 8, 24 + maxEvents * 6, maxTrajectoryReplayBytes⟩

inductive ReplayErrorCode
  | inputTooLarge | jsonFraming | jsonSyntax | jsonShape | unsupportedFormat | candidateMismatch | authorityBindingMismatch
  | serialization
  deriving DecidableEq

@[ext]
structure ReplayDigest where
  text : String
  valid : isDigest text = true
  deriving DecidableEq

def ReplayDigest.fromValidated (value : String) : Option ReplayDigest :=
  if valid : isDigest value = true then some ⟨value, valid⟩ else none

def ReplayDigest.hash (sha256 : List UInt8 → Digest) (domain : String) (components : List (List UInt8)) : ReplayDigest :=
  ⟨framedSha256 sha256 domain components, isDigest_framedSha256 sha256 domain components⟩

def ReplayDigest.parse (value : String) : Except ReplayErrorCode ReplayDigest :=
  if valid : isDigest value = true then .ok ⟨value, valid⟩ else .error .jsonShape

def ReplayDigest.bytes (digest : ReplayDigest) : List UInt8 := Utf8.bytes digest.text

structure ReplayArtifactBinding where
  identity : String
  version : String
  hash : ReplayDigest
  deriving DecidableEq

def ReplayArtifactBinding.fromValidated (binding : ArtifactBinding) : Option ReplayArtifactBinding := do
  some ⟨binding.identity, binding.version, ← ReplayDigest.fromValidated binding.hash⟩

def ReplayArtifactBinding.components (binding : ReplayArtifactBinding) : List (List UInt8) :=
  [Utf8.bytes binding.identity, Utf8.bytes binding.version, binding.hash.bytes]

structure ReplayRawCaptureSeal where
  recordCount : UInt64
  digest : ReplayDigest
  deriving DecidableEq

def ReplayRawCaptureSeal.fromValidated (capture : RawCaptureSeal) : Option ReplayRawCaptureSeal := do
  some ⟨capture.recordCount, ← ReplayDigest.fromValidated capture.digest⟩

structure ReplayRecord where
  sequenceIndex : UInt64
  eventId : String
  rawRecordDigest : ReplayDigest
  canonicalEventDigest : ReplayDigest
  previousHead : ReplayDigest
  resultingHead : ReplayDigest
  deriving DecidableEq

/-- The fields `replay_format` and `replay_version` are always the two constants. -/
structure TrajectoryReplayCandidate where
  schema : ReplayArtifactBinding
  adapter : ReplayArtifactBinding
  policy : ReplayArtifactBinding
  rawCapture : ReplayRawCaptureSeal
  trajectoryDigest : ReplayDigest
  recordCount : UInt64
  genesisHead : ReplayDigest
  records : List ReplayRecord
  finalHead : ReplayDigest
  deriving DecidableEq

section

variable (sha256 : List UInt8 → Digest)

def trajectoryDigest (trace : TrajectoryTrace) : String := framedSha256 sha256 "legitimacy.trajectory.trace.v0" [canonicalBytes trace]

def replayRecord (previousHead : ReplayDigest) (event : AgentActionEvent) : Option ReplayRecord := do
  let sequenceIndex ← event.sequenceIndex.value
  let eventId ← event.eventId.value
  let rawRecordDigest ← ReplayDigest.fromValidated event.rawRecord.digest
  let canonicalEventDigest := ReplayDigest.hash sha256 "legitimacy.trajectory.replay.canonical-event.v0" [canonicalEventBytes event]
  some {
    sequenceIndex, eventId, rawRecordDigest, canonicalEventDigest, previousHead
    resultingHead := .hash sha256 "legitimacy.trajectory.replay.chain-step.v0"
      [previousHead.bytes, bigEndian sequenceIndex, Utf8.bytes eventId, rawRecordDigest.bytes, canonicalEventDigest.bytes] }

def replayRecords (previousHead : ReplayDigest) : List AgentActionEvent → Option (List ReplayRecord × ReplayDigest)
  | [] => some ([], previousHead)
  | event :: rest => do
    let record ← replayRecord sha256 previousHead event
    let (records, finalHead) ← replayRecords record.resultingHead rest
    some (record :: records, finalHead)

end

def trajectoryReplayCandidate {host : Host} (validated : ValidatedTrajectoryTrace host) : Option TrajectoryReplayCandidate := do
  let trace := validated.trace
  let trajectoryDigest ← ReplayDigest.fromValidated (trajectoryDigest host.sha256 trace)
  let schema ← ReplayArtifactBinding.fromValidated trace.schema
  let adapter ← ReplayArtifactBinding.fromValidated trace.adapter
  let policy ← ReplayArtifactBinding.fromValidated trace.policy
  let rawCapture ← ReplayRawCaptureSeal.fromValidated trace.rawCapture
  let recordCount := UInt64.ofNat trace.events.length
  let genesisHead := ReplayDigest.hash host.sha256 "legitimacy.trajectory.replay.genesis.v0"
    ([Utf8.bytes replayFormat, Utf8.bytes replayVersion] ++ schema.components ++ adapter.components ++ policy.components ++
      [bigEndian rawCapture.recordCount, rawCapture.digest.bytes, trajectoryDigest.bytes, bigEndian recordCount])
  let (records, finalHead) ← replayRecords host.sha256 genesisHead trace.events
  some { schema, adapter, policy, rawCapture, trajectoryDigest, recordCount, genesisHead, records, finalHead }

section

def ReplayDigest.json (digest : ReplayDigest) : Json := .str digest.text

def ReplayArtifactBinding.json (binding : ReplayArtifactBinding) : Json :=
  .obj [("identity", .str binding.identity), ("version", .str binding.version), ("hash", binding.hash.json)]

def ReplayRawCaptureSeal.json (capture : ReplayRawCaptureSeal) : Json :=
  .obj [("record_count", u64 capture.recordCount), ("digest", capture.digest.json)]

def ReplayRecord.json (record : ReplayRecord) : Json :=
  .obj [("sequence_index", u64 record.sequenceIndex), ("event_id", .str record.eventId),
    ("raw_record_digest", record.rawRecordDigest.json), ("canonical_event_digest", record.canonicalEventDigest.json),
    ("previous_head", record.previousHead.json), ("resulting_head", record.resultingHead.json)]

def TrajectoryReplayCandidate.json (candidate : TrajectoryReplayCandidate) : Json :=
  .obj [("replay_format", .str replayFormat), ("replay_version", .str replayVersion), ("schema", candidate.schema.json),
    ("adapter", candidate.adapter.json), ("policy", candidate.policy.json), ("raw_capture", candidate.rawCapture.json),
    ("trajectory_digest", candidate.trajectoryDigest.json), ("record_count", u64 candidate.recordCount),
    ("genesis_head", candidate.genesisHead.json), ("records", .arr (candidate.records.map ReplayRecord.json)),
    ("final_head", candidate.finalHead.json)]

def serializeJsonLine (floatText : Float → String) (value : Json) (cap : Nat) : Except ReplayErrorCode (List UInt8) :=
  let bytes := value.compactBytes floatText
  if cap ≤ bytes.length then .error .inputTooLarge else .ok (bytes ++ [10])

def TrajectoryReplayCandidate.toJsonLine (floatText : Float → String) (candidate : TrajectoryReplayCandidate) :
    Except ReplayErrorCode (List UInt8) :=
  serializeJsonLine floatText candidate.json maxTrajectoryReplayBytes

end

section

def preflightJsonLine (reader : JsonReader) (input : List UInt8) (cap : Nat) (scanLimits : JsonScanLimits) :
    Except ReplayErrorCode (List UInt8) :=
  if cap < input.length then .error .inputTooLarge
  else if input.isEmpty || input.getLast? ≠ some 10 || input.dropLast.contains 10 || input.contains 13 then .error .jsonFraming
  else
    match scanJsonWithLimits reader scanLimits input.dropLast with
    | .ok .object => .ok input.dropLast
    | .ok .nonObject => .error .jsonShape
    | .error .budget => .error .inputTooLarge
    | .error .invalid => .error .jsonSyntax

structure ReplayRecordWire where
  sequenceIndex : UInt64
  eventId : String
  rawRecordDigest : String
  canonicalEventDigest : String
  previousHead : String
  resultingHead : String

structure ReplayCandidateWire where
  replayFormat : String
  replayVersion : String
  schema : ArtifactBinding
  adapter : ArtifactBinding
  policy : ArtifactBinding
  rawCapture : RawCaptureSeal
  trajectoryDigest : String
  recordCount : UInt64
  genesisHead : String
  records : List ReplayRecordWire
  finalHead : String

def decodeReplayRecord (json : Json) : Option ReplayRecordWire := do
  match ← structFields ["sequence_index", "event_id", "raw_record_digest", "canonical_event_digest", "previous_head", "resulting_head"]
    json with
  | [some sequenceIndex, some eventId, some rawRecordDigest, some canonicalEventDigest, some previousHead, some resultingHead] =>
    some {
      sequenceIndex := ← decodeU64 sequenceIndex
      eventId := ← decodeString eventId
      rawRecordDigest := ← decodeString rawRecordDigest
      canonicalEventDigest := ← decodeString canonicalEventDigest
      previousHead := ← decodeString previousHead
      resultingHead := ← decodeString resultingHead }
  | _ => none

def decodeReplayCandidate (json : Json) : Option ReplayCandidateWire := do
  match ← structFields ["replay_format", "replay_version", "schema", "adapter", "policy", "raw_capture", "trajectory_digest",
    "record_count", "genesis_head", "records", "final_head"] json with
  | [some replayFormat, some replayVersion, some schema, some adapter, some policy, some rawCapture, some trajectoryDigest,
      some recordCount, some genesisHead, some records, some finalHead] =>
    some {
      replayFormat := ← decodeString replayFormat
      replayVersion := ← decodeString replayVersion
      schema := ← decodeBinding schema
      adapter := ← decodeBinding adapter
      policy := ← decodeBinding policy
      rawCapture := ← decodeSeal rawCapture
      trajectoryDigest := ← decodeString trajectoryDigest
      recordCount := ← decodeU64 recordCount
      genesisHead := ← decodeString genesisHead
      records := ← decodeVec decodeReplayRecord records
      finalHead := ← decodeString finalHead }
  | _ => none

def parseBinding (binding : ArtifactBinding) : Except ReplayErrorCode ReplayArtifactBinding := do
  (validateBinding "replay binding" binding).mapError fun _ => .jsonShape
  .ok ⟨binding.identity, binding.version, ← ReplayDigest.parse binding.hash⟩

def parseCapture (capture : RawCaptureSeal) : Except ReplayErrorCode ReplayRawCaptureSeal := do
  .ok ⟨capture.recordCount, ← ReplayDigest.parse capture.digest⟩

def ReplayRecordWire.tryIntoRecord (index : Nat) (expectedPrevious : ReplayDigest) (wire : ReplayRecordWire) :
    Except ReplayErrorCode ReplayRecord := do
  if wire.sequenceIndex ≠ .ofNat index || !(validateIdentifier "replay event ID" wire.eventId).toBool then .error .jsonShape
  else
    let previousHead ← ReplayDigest.parse wire.previousHead
    if previousHead ≠ expectedPrevious then .error .jsonShape
    else
      let resultingHead ← ReplayDigest.parse wire.resultingHead
      let rawRecordDigest ← ReplayDigest.parse wire.rawRecordDigest
      let canonicalEventDigest ← ReplayDigest.parse wire.canonicalEventDigest
      .ok ⟨wire.sequenceIndex, wire.eventId, rawRecordDigest, canonicalEventDigest, previousHead, resultingHead⟩

/-- The records from an index on and the head after them. -/
def tryIntoRecords (index : Nat) (expectedPrevious : ReplayDigest) :
    List ReplayRecordWire → Except ReplayErrorCode (List ReplayRecord × ReplayDigest)
  | [] => .ok ([], expectedPrevious)
  | wire :: rest => do
    let record ← wire.tryIntoRecord index expectedPrevious
    let (records, finalHead) ← tryIntoRecords (index + 1) record.resultingHead rest
    .ok (record :: records, finalHead)

def ReplayCandidateWire.tryIntoCandidate (wire : ReplayCandidateWire) : Except ReplayErrorCode TrajectoryReplayCandidate := do
  if wire.replayFormat ≠ Trajectory.replayFormat || wire.replayVersion ≠ Trajectory.replayVersion then .error .unsupportedFormat
  else
    let schema ← parseBinding wire.schema
    let adapter ← parseBinding wire.adapter
    let policy ← parseBinding wire.policy
    let rawCapture ← parseCapture wire.rawCapture
    let trajectoryDigest ← ReplayDigest.parse wire.trajectoryDigest
    let genesisHead ← ReplayDigest.parse wire.genesisHead
    let finalHead ← ReplayDigest.parse wire.finalHead
    if wire.records.isEmpty || maxEvents < wire.records.length || .ofNat wire.records.length ≠ wire.recordCount ||
        rawCapture.recordCount ≠ wire.recordCount then .error .jsonShape
    else
      let (records, expectedPrevious) ← tryIntoRecords 0 genesisHead wire.records
      if expectedPrevious ≠ finalHead then .error .jsonShape
      else
        .ok { schema, adapter, policy, rawCapture, trajectoryDigest, recordCount := wire.recordCount, genesisHead, records, finalHead }

structure InspectedTrajectoryReplayCandidate where
  candidate : TrajectoryReplayCandidate
  deriving DecidableEq

def InspectedTrajectoryReplayCandidate.fromJsonSlice (reader : JsonReader) (input : List UInt8) :
    Except ReplayErrorCode InspectedTrajectoryReplayCandidate := do
  let body ← preflightJsonLine reader input maxTrajectoryReplayBytes replayScanLimits
  let wire ← ((reader.parse body).bind decodeReplayCandidate).elim (.error .jsonShape) .ok
  let candidate ← wire.tryIntoCandidate
  .ok ⟨candidate⟩

end

end Legitimacy.Trajectory
