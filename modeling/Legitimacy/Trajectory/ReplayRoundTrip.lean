import Legitimacy.JsonLine
import Legitimacy.Trajectory.Interchange
import Legitimacy.Trajectory.Replay

namespace Legitimacy.Trajectory

open ExceptRun Json Serde

/-- Records that stand from an index on, each with the head before it as its previous head. -/
def Chained (index : Nat) (head : ReplayDigest) : List ReplayRecord → ReplayDigest → Prop
  | [], finalHead => head = finalHead
  | record :: rest, finalHead => record.sequenceIndex = .ofNat index ∧ isIdentifier record.eventId = true ∧ record.previousHead = head ∧
      Chained (index + 1) record.resultingHead rest finalHead

def ReplayBindingValid (binding : ReplayArtifactBinding) : Prop :=
  isAsciiName binding.identity = true ∧ isAsciiVersion binding.version = true

structure CandidateValid (candidate : TrajectoryReplayCandidate) : Prop where
  schema : ReplayBindingValid candidate.schema
  adapter : ReplayBindingValid candidate.adapter
  policy : ReplayBindingValid candidate.policy
  nonempty : candidate.records ≠ []
  count : candidate.records.length ≤ maxEvents
  recordCount : .ofNat candidate.records.length = candidate.recordCount
  captured : candidate.rawCapture.recordCount = candidate.recordCount
  chained : Chained 0 candidate.genesisHead candidate.records candidate.finalHead

section

theorem ReplayDigest.fromValidated_eq {value : String} (digest : isDigest value = true) :
    ReplayDigest.fromValidated value = some ⟨value, digest⟩ := dif_pos digest

theorem ReplayArtifactBinding.fromValidated_valid {binding : ArtifactBinding} (valid : BindingValid binding) :
    ∃ made, ReplayArtifactBinding.fromValidated binding = some made ∧ ReplayBindingValid made := by
  refine ⟨⟨binding.identity, binding.version, ⟨binding.hash, valid.hash⟩⟩, ?_, valid.identity, valid.version⟩
  rw [ReplayArtifactBinding.fromValidated, ReplayDigest.fromValidated_eq valid.hash]
  rfl

theorem replayRecords_chained {sha256 : List UInt8 → Digest} {events : List AgentActionEvent} {index : Nat} (head : ReplayDigest)
    (accepted : ∀ entry ∈ events.zipIdx index, EventAccepted entry.2 entry.1) :
    ∃ records finalHead, replayRecords sha256 head events = some (records, finalHead) ∧ records.length = events.length ∧
      Chained index head records finalHead := by
  induction events generalizing index head with
  | nil => exact ⟨[], head, rfl, rfl, rfl⟩
  | cons event rest ih =>
    have first := accepted (event, index) List.mem_cons_self
    obtain ⟨eventId, found, identifier⟩ := first.eventId
    have made : ∃ record, replayRecord sha256 head event = some record ∧ record.sequenceIndex = .ofNat index ∧ record.eventId = eventId ∧
        record.previousHead = head := by
      rw [replayRecord, first.sequenceIndex, found, ReplayDigest.fromValidated_eq first.rawRecord]
      exact ⟨_, rfl, rfl, rfl, rfl⟩
    obtain ⟨record, made, sequenceIndex, named, previous⟩ := made
    obtain ⟨records, finalHead, later, length, chained⟩ := @ih (index + 1) record.resultingHead
      fun entry member => accepted entry (List.mem_cons_of_mem _ member)
    refine ⟨record :: records, finalHead, ?_, by simp [length], sequenceIndex, named ▸ identifier, previous, chained⟩
    rw [replayRecords, made]
    show (replayRecords sha256 record.resultingHead rest).bind _ = _
    rw [later]
    rfl

theorem candidate_built {host : Host} (validated : ValidatedTrajectoryTrace host) :
    ∃ candidate, trajectoryReplayCandidate validated = some candidate ∧ CandidateValid candidate := by
  have facts := validated.facts
  obtain ⟨schema, atSchema, schemaValid⟩ := ReplayArtifactBinding.fromValidated_valid facts.schema
  obtain ⟨adapter, atAdapter, adapterValid⟩ := ReplayArtifactBinding.fromValidated_valid facts.adapter
  obtain ⟨policy, atPolicy, policyValid⟩ := ReplayArtifactBinding.fromValidated_valid facts.policy
  have digest : isDigest (trajectoryDigest host.sha256 validated.trace) = true := isDigest_framedSha256 _ _ _
  have capture : ReplayRawCaptureSeal.fromValidated validated.trace.rawCapture =
      some ⟨validated.trace.rawCapture.recordCount, ⟨_, facts.rawCapture⟩⟩ := by
    rw [ReplayRawCaptureSeal.fromValidated, ReplayDigest.fromValidated_eq facts.rawCapture]
    rfl
  unfold trajectoryReplayCandidate
  simp only [ReplayDigest.fromValidated_eq digest, atSchema, atAdapter, atPolicy, capture, Option.bind_eq_bind, Option.bind_some]
  generalize ReplayDigest.hash host.sha256 "legitimacy.trajectory.replay.genesis.v0" _ = genesis
  obtain ⟨records, finalHead, made, length, chained⟩ := @replayRecords_chained host.sha256 _ 0 genesis facts.events
  refine ⟨_, by rw [made]; rfl, schemaValid, adapterValid, policyValid, ?_, ?_, ?_, facts.recordCount, chained⟩
  · intro empty
    have none : records = [] := empty
    rw [none] at length
    exact facts.nonempty (List.length_eq_zero_iff.1 length.symm)
  · exact Nat.le_trans (Nat.le_of_eq length) facts.eventCount
  · exact congrArg UInt64.ofNat length

end

section

def ReplayArtifactBinding.wire (binding : ReplayArtifactBinding) : ArtifactBinding := ⟨binding.identity, binding.version, binding.hash.text⟩

def ReplayRawCaptureSeal.wire (capture : ReplayRawCaptureSeal) : RawCaptureSeal := ⟨capture.recordCount, capture.digest.text⟩

def ReplayRecord.wire (record : ReplayRecord) : ReplayRecordWire :=
  ⟨record.sequenceIndex, record.eventId, record.rawRecordDigest.text, record.canonicalEventDigest.text, record.previousHead.text,
    record.resultingHead.text⟩

def TrajectoryReplayCandidate.wire (candidate : TrajectoryReplayCandidate) : ReplayCandidateWire where
  replayFormat := Trajectory.replayFormat
  replayVersion := Trajectory.replayVersion
  schema := candidate.schema.wire
  adapter := candidate.adapter.wire
  policy := candidate.policy.wire
  rawCapture := candidate.rawCapture.wire
  trajectoryDigest := candidate.trajectoryDigest.text
  recordCount := candidate.recordCount
  genesisHead := candidate.genesisHead.text
  records := candidate.records.map ReplayRecord.wire
  finalHead := candidate.finalHead.text

@[simp]
theorem decodeBinding_replay (binding : ReplayArtifactBinding) : decodeBinding binding.json = some binding.wire := by
  simp [decodeBinding, ReplayArtifactBinding.json, ReplayArtifactBinding.wire, ReplayDigest.json, structFields, List.lookup_cons, decodeString]

@[simp]
theorem decodeSeal_replay (capture : ReplayRawCaptureSeal) : decodeSeal capture.json = some capture.wire := by
  simp [decodeSeal, ReplayRawCaptureSeal.json, ReplayRawCaptureSeal.wire, ReplayDigest.json, structFields, List.lookup_cons, decodeString]

theorem decodeReplayRecord_json (record : ReplayRecord) : decodeReplayRecord record.json = some record.wire := by
  simp [decodeReplayRecord, ReplayRecord.json, ReplayRecord.wire, ReplayDigest.json, structFields, List.lookup_cons, decodeString]

theorem decodeReplayCandidate_json (candidate : TrajectoryReplayCandidate) :
    decodeReplayCandidate candidate.json = some candidate.wire := by
  have records : decodeVec decodeReplayRecord (.arr (candidate.records.map ReplayRecord.json)) =
      some (candidate.records.map ReplayRecord.wire) := by
    rw [decodeVec]
    induction candidate.records with
    | nil => rfl
    | cons record rest ih =>
      rw [List.map_cons, List.mapM_cons, decodeReplayRecord_json, ih]
      rfl
  simp [decodeReplayCandidate, TrajectoryReplayCandidate.json, TrajectoryReplayCandidate.wire, ReplayDigest.json, structFields,
    List.lookup_cons, decodeString, records]

@[simp]
theorem ReplayDigest.parse_text (digest : ReplayDigest) : ReplayDigest.parse digest.text = .ok digest := dif_pos digest.valid

@[simp]
theorem parseCapture_wire (capture : ReplayRawCaptureSeal) : parseCapture capture.wire = .ok capture := by
  rw [parseCapture, ReplayRawCaptureSeal.wire, ReplayDigest.parse_text]
  rfl

theorem parseBinding_wire {binding : ReplayArtifactBinding} (valid : ReplayBindingValid binding) :
    parseBinding binding.wire = .ok binding := by
  have checked : validateBinding "replay binding" binding.wire = .ok ⟨⟩ :=
    validateBinding_eq_ok.2 ⟨valid.1, valid.2, binding.hash.valid⟩
  rw [parseBinding, checked, ReplayArtifactBinding.wire, ReplayDigest.parse_text]
  rfl

theorem tryIntoRecords_wire {records : List ReplayRecord} {index : Nat} {head finalHead : ReplayDigest}
    (chained : Chained index head records finalHead) :
    tryIntoRecords index head (records.map ReplayRecord.wire) = .ok (records, finalHead) := by
  induction records generalizing index head with
  | nil =>
    obtain rfl : head = finalHead := chained
    rfl
  | cons record rest ih =>
    obtain ⟨sequenceIndex, identifier, previous, chained⟩ := chained
    have named : validateIdentifier "replay event ID" record.eventId = .ok ⟨⟩ := validateIdentifier_eq_ok.2 identifier
    have first : record.wire.tryIntoRecord index head = .ok record := by
      simp [ReplayRecordWire.tryIntoRecord, ReplayRecord.wire, sequenceIndex, named, Except.toBool, previous, bind, Except.bind]
      rw [← sequenceIndex, ← previous]
    rw [List.map_cons, tryIntoRecords, first]
    show (tryIntoRecords (index + 1) record.resultingHead (rest.map ReplayRecord.wire)).bind _ = _
    rw [ih chained]
    rfl

theorem tryIntoCandidate_wire {candidate : TrajectoryReplayCandidate} (valid : CandidateValid candidate) :
    candidate.wire.tryIntoCandidate = .ok candidate := by
  have records := tryIntoRecords_wire valid.chained
  have schema := parseBinding_wire valid.schema
  have adapter := parseBinding_wire valid.adapter
  have policy := parseBinding_wire valid.policy
  have captured : candidate.rawCapture.recordCount = candidate.recordCount := valid.captured
  have counted : UInt64.ofNat candidate.records.length = candidate.recordCount := valid.recordCount
  have count : ¬maxEvents < candidate.records.length := Nat.not_lt.2 valid.count
  simp only [ReplayCandidateWire.tryIntoCandidate, TrajectoryReplayCandidate.wire, schema, adapter, policy, parseCapture_wire,
    ReplayDigest.parse_text, records, captured, counted, count, List.length_map, List.isEmpty_map, bind, Except.bind]
  simp [valid.nonempty]

end

section

variable {floatText : Float → String}

def replayRecordBytes : Nat := 560

theorem ReplayDigest.size (digest : ReplayDigest) : textSize (compactChars floatText digest.json) = 73 := isDigest_size digest.valid

theorem ReplayRecord.size_le {record : ReplayRecord} (identifier : isIdentifier record.eventId = true) :
    textSize (compactChars floatText record.json) + 1 ≤ replayRecordBytes := by
  have name := @identifier_size_le floatText _ identifier
  have bound := @size_struct_le floatText [("sequence_index", u64 record.sequenceIndex), ("event_id", .str record.eventId),
    ("raw_record_digest", record.rawRecordDigest.json), ("canonical_event_digest", record.canonicalEventDigest.json),
    ("previous_head", record.previousHead.json), ("resulting_head", record.resultingHead.json)]
    ["sequence_index", "event_id", "raw_record_digest", "canonical_event_digest", "previous_head", "resulting_head"] rfl 114 (by decide)
  have index := @size_u64_le floatText record.sequenceIndex
  simp only [List.map_cons, List.map_nil, List.sum_cons, List.sum_nil, ReplayDigest.size] at bound
  rw [ReplayRecord.json, replayRecordBytes]
  omega

theorem ReplayArtifactBinding.size_le {binding : ReplayArtifactBinding} (valid : ReplayBindingValid binding) :
    textSize (compactChars floatText binding.json) ≤ 400 :=
  @bindingJson_size_le floatText binding.wire ⟨valid.1, valid.2, binding.hash.valid⟩

theorem ReplayRawCaptureSeal.size_le (capture : ReplayRawCaptureSeal) : textSize (compactChars floatText capture.json) ≤ 140 :=
  @sealJson_size_le floatText capture.wire capture.digest.valid

theorem records_size_le {records : List ReplayRecord} (identifiers : ∀ record ∈ records, isIdentifier record.eventId = true) :
    ((records.map ReplayRecord.json).map fun value => textSize (compactChars floatText value)).sum + records.length ≤
      records.length * replayRecordBytes := by
  induction records with
  | nil => exact Nat.le_refl _
  | cons record rest ih =>
    have first := @ReplayRecord.size_le floatText _ (identifiers record List.mem_cons_self)
    have others := ih fun other member => identifiers other (List.mem_cons_of_mem record member)
    simp only [List.map_cons, List.sum_cons, List.length_cons, Nat.add_mul, Nat.one_mul] at *
    omega

theorem Chained.identifiers {records : List ReplayRecord} {index : Nat} {head finalHead : ReplayDigest}
    (chained : Chained index head records finalHead) : ∀ record ∈ records, isIdentifier record.eventId = true := by
  induction records generalizing index head with
  | nil => exact fun record member => nomatch member
  | cons record rest ih => exact List.forall_mem_cons.2 ⟨chained.2.1, ih chained.2.2.2⟩

/-- The line of a valid candidate is far below its limit. -/
theorem candidate_size {candidate : TrajectoryReplayCandidate} (valid : CandidateValid candidate) :
    (candidate.json.compactBytes floatText).length + 1 < maxTrajectoryReplayBytes := by
  have bound := @size_struct_le floatText [("replay_format", .str replayFormat), ("replay_version", .str replayVersion),
    ("schema", candidate.schema.json), ("adapter", candidate.adapter.json), ("policy", candidate.policy.json),
    ("raw_capture", candidate.rawCapture.json), ("trajectory_digest", candidate.trajectoryDigest.json),
    ("record_count", u64 candidate.recordCount), ("genesis_head", candidate.genesisHead.json),
    ("records", .arr (candidate.records.map ReplayRecord.json)), ("final_head", candidate.finalHead.json)]
    ["replay_format", "replay_version", "schema", "adapter", "policy", "raw_capture", "trajectory_digest", "record_count",
      "genesis_head", "records", "final_head"] rfl 161 (by decide)
  have schema := @ReplayArtifactBinding.size_le floatText _ valid.schema
  have adapter := @ReplayArtifactBinding.size_le floatText _ valid.adapter
  have policy := @ReplayArtifactBinding.size_le floatText _ valid.policy
  have capture := @ReplayRawCaptureSeal.size_le floatText candidate.rawCapture
  have recordCount := @size_u64_le floatText candidate.recordCount
  have values := @size_arr_le floatText (candidate.records.map ReplayRecord.json)
  have records := @records_size_le floatText _ valid.chained.identifiers
  have format := @PlainText.size replayFormat (by decide) floatText
  have version := @PlainText.size replayVersion (by decide) floatText
  have formatSize : replayFormat.utf8ByteSize = 28 := rfl
  have versionSize : replayVersion.utf8ByteSize = 1 := rfl
  have count : candidate.records.length * replayRecordBytes ≤ maxEvents * replayRecordBytes := Nat.mul_le_mul_right _ valid.count
  have total : maxEvents * replayRecordBytes = 5600000 := rfl
  have limit : maxTrajectoryReplayBytes = 16777216 := rfl
  simp only [List.map_cons, List.map_nil, List.sum_cons, List.sum_nil, ReplayDigest.size, List.length_map] at bound values
  rw [length_compactBytes, TrajectoryReplayCandidate.json]
  omega

end

section

theorem readable_replayBinding (binding : ReplayArtifactBinding) : Readable 1 binding.json :=
  readable_struct ["identity", "version", "hash"] rfl (by decide) (by simp [readable_str, ReplayDigest.json])

theorem readable_replayCapture (capture : ReplayRawCaptureSeal) : Readable 1 capture.json :=
  readable_struct ["record_count", "digest"] rfl (by decide) (by simp [readable_str, readable_u64, ReplayDigest.json])

theorem readable_record (record : ReplayRecord) : Readable 1 record.json :=
  readable_struct ["sequence_index", "event_id", "raw_record_digest", "canonical_event_digest", "previous_head", "resulting_head"] rfl
    (by decide) (by simp [readable_str, readable_u64, ReplayDigest.json])

theorem readable_candidate (candidate : TrajectoryReplayCandidate) : Readable 3 candidate.json := by
  have binding (binding : ReplayArtifactBinding) : Readable 2 binding.json := (readable_replayBinding binding).mono (by omega)
  have capture := (readable_replayCapture candidate.rawCapture).mono (by omega : 1 ≤ 2)
  have records : Readable 2 (.arr (candidate.records.map ReplayRecord.json)) := readable_arr (by simp [readable_record])
  exact readable_struct ["replay_format", "replay_version", "schema", "adapter", "policy", "raw_capture", "trajectory_digest",
    "record_count", "genesis_head", "records", "final_head"] rfl (by decide)
    (by simp [readable_str, readable_u64, ReplayDigest.json, binding, capture, records])

theorem record_counts (records : List ReplayRecord) :
    nodeCounts (records.map ReplayRecord.json) = records.length * 7 ∧ keyCounts (records.map ReplayRecord.json) = records.length * 6 := by
  induction records with
  | nil => exact ⟨rfl, rfl⟩
  | cons record rest ih =>
    have nodes : nodeCount record.json = 7 := rfl
    have keys : keyCount record.json = 6 := rfl
    rw [List.map_cons, nodeCounts, keyCounts, nodes, keys, ih.1, ih.2, List.length_cons]
    omega

theorem candidate_counts (candidate : TrajectoryReplayCandidate) :
    nodeCount candidate.json = 23 + candidate.records.length * 7 ∧ keyCount candidate.json = 22 + candidate.records.length * 6 := by
  obtain ⟨nodes, keys⟩ := record_counts candidate.records
  have others : nodeCount candidate.json = nodeCounts (candidate.records.map ReplayRecord.json) + 23 := by
    simp [TrajectoryReplayCandidate.json, nodeCount, fieldNodes, ReplayArtifactBinding.json, ReplayRawCaptureSeal.json, ReplayDigest.json, u64]
    omega
  have otherKeys : keyCount candidate.json = keyCounts (candidate.records.map ReplayRecord.json) + 22 := by
    simp [TrajectoryReplayCandidate.json, keyCount, fieldKeys, ReplayArtifactBinding.json, ReplayRawCaptureSeal.json, ReplayDigest.json, u64]
    omega
  omega

theorem serializeJsonLine_ok {floatText : Float → String} {value : Json} {cap : Nat}
    (small : (value.compactBytes floatText).length < cap) :
    serializeJsonLine floatText value cap = .ok (value.compactBytes floatText ++ [10]) :=
  guard_eq_ok.2 ⟨Nat.not_le.2 small, rfl⟩

theorem preflightJsonLine_ok {floatText : Float → String} {reader : JsonReader} {value : Json} {cap : Nat} {limits : JsonScanLimits}
    (faithful : Faithful floatText reader.parse) (shallow : value.nesting ≤ 127) (integral : Integral value)
    (small : (value.compactBytes floatText).length + 1 ≤ cap) (within : WithinLimits limits value) (object : rootKind value = .object) :
    preflightJsonLine reader (value.compactBytes floatText ++ [10]) cap limits = .ok (value.compactBytes floatText) := by
  have printed := @compactBytes_printed floatText value integral
  have read := faithful.exact integral shallow
  have newline : 10 ∉ value.compactBytes floatText := fun member => absurd (printed 10 member) (by decide)
  have carriage : 13 ∉ value.compactBytes floatText := fun member => absurd (printed 13 member) (by decide)
  have length : ¬cap < (value.compactBytes floatText ++ [10]).length := by
    rw [List.length_append, List.length_singleton]
    omega
  have framed : ((value.compactBytes floatText ++ [10]).isEmpty || (value.compactBytes floatText ++ [10]).getLast? ≠ some 10 ||
      (value.compactBytes floatText ++ [10]).dropLast.contains 10 || (value.compactBytes floatText ++ [10]).contains 13) = false := by
    simp [newline, carriage]
  have scanned := scanJsonWithLimits_ok read within
  rw [object] at scanned
  rw [preflightJsonLine, if_neg length, framed, if_neg (by decide), List.dropLast_concat, scanned]

theorem candidate_within {floatText : Float → String} {candidate : TrajectoryReplayCandidate} (valid : CandidateValid candidate) :
    WithinLimits replayScanLimits candidate.json := by
  have readable := readable_candidate candidate
  obtain ⟨nodes, keys⟩ := candidate_counts candidate
  have count := valid.count
  have size := @candidate_size floatText candidate valid
  have strings := @counts_le_size floatText candidate.json readable.integral
  have events : maxEvents = 10000 := rfl
  rw [length_compactBytes] at size
  refine ⟨?_, ?_, ?_, ?_, readable.objects⟩
  · exact Nat.le_trans (Nat.succ_le_succ readable.nesting) (by decide)
  · show nodeCount candidate.json ≤ 8 + maxEvents * 8
    omega
  · show keyCount candidate.json ≤ 24 + maxEvents * 6
    omega
  · show stringBytes candidate.json ≤ maxTrajectoryReplayBytes
    omega

end

/-- The candidate of a validated trace is written as a line within the limits and read back unchanged. -/
theorem replay_round_trip {host : Host} (faithful : Faithful host.floatText host.reader.parse) (validated : ValidatedTrajectoryTrace host) :
    ∃ candidate body, trajectoryReplayCandidate validated = some candidate ∧
      candidate.toJsonLine host.floatText = .ok (body ++ [10]) ∧ (body ++ [10]).length ≤ maxTrajectoryReplayBytes ∧
      scanJsonWithLimits host.reader replayScanLimits body = .ok .object ∧
      InspectedTrajectoryReplayCandidate.fromJsonSlice host.reader (body ++ [10]) = .ok ⟨candidate⟩ := by
  obtain ⟨candidate, built, valid⟩ := candidate_built validated
  have size := @candidate_size host.floatText candidate valid
  have readable := readable_candidate candidate
  have shallow : candidate.json.nesting ≤ 127 := readable.nesting.trans (by decide)
  have within := @candidate_within host.floatText candidate valid
  have read := faithful.exact readable.integral shallow
  have length : (candidate.json.compactBytes host.floatText ++ [10]).length ≤ maxTrajectoryReplayBytes := by
    rw [List.length_append, List.length_singleton]
    exact size.le
  have preflight := preflightJsonLine_ok faithful shallow readable.integral size.le within rfl
  refine ⟨candidate, _, built, serializeJsonLine_ok (Nat.lt_of_succ_lt size), length, scanJsonWithLimits_ok read within, ?_⟩
  rw [InspectedTrajectoryReplayCandidate.fromJsonSlice, preflight]
  refine bind_eq_ok.2 ⟨_, rfl, bind_eq_ok.2 ⟨candidate.wire, ?_, bind_eq_ok.2 ⟨candidate, tryIntoCandidate_wire valid, rfl⟩⟩⟩
  rw [read, Option.bind_some, decodeReplayCandidate_json]
  rfl

theorem replay_round_trip_single : ∃ candidate body, trajectoryReplayCandidate (singleValidated "run" "event" (by decide) (by decide)) = some candidate ∧
    candidate.toJsonLine exampleHost.floatText = .ok (body ++ [10]) ∧ (body ++ [10]).length ≤ maxTrajectoryReplayBytes ∧
    scanJsonWithLimits exampleHost.reader replayScanLimits body = .ok .object ∧
    InspectedTrajectoryReplayCandidate.fromJsonSlice exampleHost.reader (body ++ [10]) = .ok ⟨candidate⟩ :=
  replay_round_trip exampleHost_faithful (singleValidated "run" "event" (by decide) (by decide))

end Legitimacy.Trajectory
