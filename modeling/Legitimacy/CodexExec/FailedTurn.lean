import Legitimacy.CodexExec.MappedTraces
import Mathlib.Tactic.Ring

namespace Legitimacy.CodexExec

open Trajectory ExceptRun Json LineFile Serde

section

def threadStartedJson (threadId : String) : Json := .obj [("type", .str "thread.started"), ("thread_id", .str threadId)]

def turnStartedJson : Json := .obj [("type", .str "turn.started")]

def turnFailedJson : Json := .obj [("type", .str "turn.failed"), ("error", .obj [("message", .str "")])]

def failedTurnJson (threadId : String) : List Json := [threadStartedJson threadId, turnStartedJson, turnFailedJson]

def failedTurn (threadId : String) : List ParsedRecord := [.threadStarted threadId, .turnStarted, .turnFailed ""]

variable (host : AdapterHost) (threadId : String)

def failedRecords : List (List UInt8) := (failedTurnJson threadId).map (compactBytes host.floatText)

def failedJsonl : List UInt8 := joined (failedRecords host threadId)

variable {host} {threadId}

theorem failedTurn_readable : ∀ value ∈ failedTurnJson threadId, (∃ fields, value = .obj fields) ∧ Readable 15 value := by
  have message : Readable 1 (.obj [("message", .str "")]) := readable_struct ["message"] rfl (by decide) (by simp [readable_str])
  refine List.forall_mem_cons.2 ⟨⟨⟨_, rfl⟩, ?_⟩, List.forall_mem_cons.2 ⟨⟨⟨_, rfl⟩, ?_⟩, List.forall_mem_singleton.2 ⟨⟨_, rfl⟩, ?_⟩⟩⟩
  · exact readable_struct ["type", "thread_id"] rfl (by decide) (by simp [readable_str])
  · exact readable_struct ["type"] rfl (by decide) (by simp [readable_str])
  · exact (readable_struct ["type", "error"] rfl (by decide) (by simp [readable_str, message]) : Readable 2 turnFailedJson).mono (by omega)

theorem failedTurn_parsed (faithful : Faithful host.floatText host.reader.parse) (uuid : isCanonicalUuidV7 threadId = true) :
    (failedRecords host threadId).zipIdx.mapM (parseRecord host.reader.parse) = .ok (failedTurn threadId) := by
  have read (value : Json) (member : value ∈ failedTurnJson threadId) : host.reader.parse (compactBytes host.floatText value) = some value :=
    have readable := (failedTurn_readable value member).2
    faithful.exact readable.integral (readable.nesting.trans (by decide))
  have typed : parseTyped (threadStartedJson threadId) 0 "thread.started" = .ok (.threadStarted threadId) := by
    have decodes : decoded decodeThreadStarted (threadStartedJson threadId) 0 "$" = .ok threadId := rfl
    simp [parseTyped, decodes, uuid, bind, Except.bind]
  refine mapM_eq_ok.2 (.cons ?_ (.cons ?_ (.cons ?_ .nil)))
  · rw [parseRecord, read _ (by simp [failedTurnJson])]
    exact bind_eq_ok.2 ⟨_, rfl, bind_eq_ok.2 ⟨_, rfl, bind_eq_ok.2 ⟨_, typed, rfl⟩⟩⟩
  · rw [parseRecord, read _ (by simp [failedTurnJson])]
    rfl
  · rw [parseRecord, read _ (by simp [failedTurnJson])]
    rfl

theorem failedTurn_stream {termination : Option ProcessTermination} (ended : validateTermination .failed termination = .ok ⟨⟩) :
    validateStream (failedTurn threadId) termination = .ok .failed := by
  have loop : (failedTurn threadId).zipIdx.foldlM validateRecord .initial =
      .ok { StreamState.initial with turnStarted := true, terminal := some .failed } := rfl
  have starts : startsThread (failedTurn threadId) = true := rfl
  rw [validateStream, starts, if_neg (by decide)]
  exact bind_eq_ok.2 ⟨_, loop, bind_eq_ok.2 ⟨_, rfl, bind_eq_ok.2 ⟨⟨⟩, ended, rfl⟩⟩⟩

def failedRunId (host : AdapterHost) (threadId : String) : String :=
  runId host (compactBytes host.floatText (threadStartedJson threadId)) threadId

def failedEvent (host : AdapterHost) (threadId : String) (entry : (ParsedRecord × List UInt8) × Nat) : AgentActionEvent :=
  let source := locator host.sha256 entry.2 entry.1.2
  let recordZeroSource := locator host.sha256 0 (compactBytes host.floatText (threadStartedJson threadId))
  { eventId := derivedFrom (eventId host (failedRunId host threadId) entry.2 entry.1.2) (eventRule host.sha256)
      (if entry.2 = 0 then [recordZeroSource] else [recordZeroSource, source])
    sequenceIndex := derived (.ofNat entry.2) (positionRule host.sha256) source
    kind := derived .lifecycle (fieldRule host.sha256) source
    sourceItemId := none
    rawRecord := ⟨.ofNat entry.2, rawRecordDigest host.sha256 entry.1.2⟩
    payload := addRecordPayload (fieldRule host.sha256) source entry.1.1
      (addString (fieldRule host.sha256) source "source-event" (sourceEvent entry.1.1) ∅) }

def failedTrace (host : AdapterHost) (threadId : String) (policy : ArtifactBinding) : TrajectoryTrace where
  schema := host.schemaBinding
  runId := derived (failedRunId host threadId) (runRule host.sha256)
    (locator host.sha256 0 (compactBytes host.floatText (threadStartedJson threadId)))
  adapter := host.adapterBinding
  policy
  rawCapture := rawCaptureSeal host.sha256 (failedRecords host threadId)
  events := ((failedTurn threadId).zip (failedRecords host threadId)).zipIdx.map (failedEvent host threadId)

theorem failedTrace_ids {policy : ArtifactBinding} : (failedTrace host threadId policy).events.map (·.eventId.value) = ((failedRecords host threadId).zipIdx.map fun entry =>
    eventId host (failedRunId host threadId) entry.2 entry.1).map some := by
  rfl

def failedDeclarations (host : AdapterHost) (threadId : String) (policy : ArtifactBinding) : TrajectoryValidationContext :=
  ⟨host.adapterBinding, policy, rawCaptureSeal host.sha256 (failedRecords host threadId), codexRules host.sha256⟩

variable {policy : ArtifactBinding}

theorem failedTurn_mapped : mapRecordsWithBindings host (failedTurn threadId) (failedRecords host threadId)
    (rawCaptureSeal host.sha256 (failedRecords host threadId)) policy =
      .ok ⟨failedTrace host threadId policy, failedDeclarations host threadId policy⟩ := by
  rfl

/-- What the evaluation of a turn shows: it is framed, and its trace keeps the totals. -/
structure EvaluatedTurn (host : AdapterHost) (threadId : String) (policy : ArtifactBinding) : Prop where
  framed : ∃ capture, parseOwned host.reader (failedJsonl host threadId) = .ok capture ∧ capture.recordSlices = failedRecords host threadId
  fits : MappedFits host (failedTrace host threadId policy)
  uuid : isCanonicalUuidV7 threadId = true

theorem failedTurn_adapts (faithful : Faithful host.floatText host.reader.parse) {context : TrustedAdaptationContext}
    (turn : EvaluatedTurn host threadId context.downstreamGovernancePolicy)
    {capture : FramedCapture} (framed : parseOwned host.reader (failedJsonl host threadId) = .ok capture)
    {authority : InputAuthorityReceipt} (authorized : authority.authorize host capture context = .ok ⟨⟩)
    (ended : validateTermination .failed authority.processTermination = .ok ⟨⟩) :
    adapt host (failedJsonl host threadId) authority context = .ok ⟨capture, failedTrace host threadId context.downstreamGovernancePolicy,
      failedDeclarations host threadId context.downstreamGovernancePolicy, authority.commitment host.sha256, authority.evidenceClass⟩ := by
  obtain ⟨other, parsed, slices⟩ := turn.framed
  obtain rfl := Except.ok.inj (framed.symm.trans parsed)
  have sealed := authorize_rawSeal authorized
  have read := failedTurn_parsed faithful turn.uuid
  have stream := @failedTurn_stream threadId _ ended
  have mapped := @failedTurn_mapped host threadId context.downstreamGovernancePolicy
  rw [← slices] at read mapped
  rw [← sealed] at mapped
  obtain ⟨fresh, bounded, -⟩ := validateStream_eq_ok.1 stream
  have valid := mapped_valid framed read fresh bounded sealed (context_policy context) mapped turn.fits
  exact adapt_eq_ok.2 ⟨framed, authorized, ⟨failedTurn threadId, _, read, stream, mapped⟩, rfl, rfl, validateTrace_eq_ok.2 valid⟩

theorem failedTurn_fixture (faithful : Faithful host.floatText host.reader.parse) (turn : EvaluatedTurn host threadId policy) (valid : BindingValid policy)
    (unreserved : isReserved policy.identity = false) {nonce : NonceMaterial}
    (drawn : nonce.assertedSource = .captureRandom → ∃ byte ∈ nonce.bytes, byte ≠ 0) :
    ∃ authority context adapted, adapt host (failedJsonl host threadId) authority context = .ok adapted := by
  obtain ⟨capture, parsed, -⟩ := turn.framed
  obtain ⟨receipt, made⟩ : ∃ receipt, SyntheticFixtureReceipt.withNonce host (failedJsonl host threadId) host.fixtureSpecBinding nonce = .ok receipt :=
    ⟨_, bind_eq_ok.2 ⟨capture, parsed, rfl⟩⟩
  have authorized := @withNonce_authorizes _ _ _ _ (.expecting host (.syntheticFixture receipt) valid unreserved) parsed drawn _ made rfl
  exact ⟨_, _, _, failedTurn_adapts faithful turn parsed authorized rfl⟩

end

section

variable {host : AdapterHost} {threadId : String} {policy : ArtifactBinding}

theorem utf8ByteSize_digestTail {digest : String} (valid : isDigest digest = true) : (digestTail digest).utf8ByteSize = 64 := by
  obtain ⟨hex, rfl, size, -⟩ := isDigest_iff.1 valid
  rw [digestTail_digest, size]

theorem threadStarted_payload (rule : ArtifactBinding) (source : SourceLocator) (threadId : String) :
    payloadJson (addRecordPayload rule source (.threadStarted threadId) (addString rule source "source-event" (sourceEvent (.threadStarted threadId)) ∅)) =
      .obj [("observed-thread-id", evidencedJson valueJson (derived (stringValue threadId) rule source)),
        ("source-event", evidencedJson valueJson (derived (stringValue "thread.started") rule source))] := by
  rfl

theorem turnStarted_payload (rule : ArtifactBinding) (source : SourceLocator) :
    payloadJson (addRecordPayload rule source .turnStarted (addString rule source "source-event" (sourceEvent .turnStarted) ∅)) =
      .obj [("source-event", evidencedJson valueJson (derived (stringValue "turn.started") rule source))] := by
  rfl

theorem turnFailed_payload (rule : ArtifactBinding) (source : SourceLocator) (message : String) :
    payloadJson (addRecordPayload rule source (.turnFailed message) (addString rule source "source-event" (sourceEvent (.turnFailed message)) ∅)) =
      .obj [("source-event", evidencedJson valueJson (derived (stringValue "turn.failed") rule source))] := by
  rfl

theorem failedTrace_size (short : threadId.utf8ByteSize ≤ 36) (valid : BindingValid policy) :
    ((traceJson (failedTrace host threadId policy)).compactBytes host.floatText).length ≤ maxTraceCompactJsonBytes := by
  obtain ⟨schemaIdentity, schemaVersion, schemaHash⟩ := (@schemaBinding_valid host.toHost).fits
  obtain ⟨adapterIdentity, adapterVersion, adapterHash⟩ := host.adapterBinding_valid.fits
  obtain ⟨policyIdentity, policyVersion, policyHash⟩ := valid.fits
  have numbers : ∀ value ∈ [0, .ofNat 0, .ofNat 1, .ofNat 2, .ofNat 3, .ofNat (compactBytes host.floatText (threadStartedJson threadId)).length,
    .ofNat (compactBytes host.floatText turnStartedJson).length, .ofNat (compactBytes host.floatText turnFailedJson).length],
      sizeBound host.floatText (u64 value) ≤ 20 := fun value _ => size_u64_le value
  have keys : ["schema", "run_id", "adapter", "policy", "raw_capture", "events", "identity", "version", "hash", "record_count", "digest", "value",
    "evidence", "classification", "declared-derivation-binding", "rule", "source_inputs", "record_index", "byte_offset", "byte_length", "event_id",
    "sequence_index", "kind", "source_item_id", "raw_record", "payload", "observed-thread-id", "source-event", "type", "string", "run-", "event-", "0",
    "thread.started", "turn.started", "turn.failed", "derivation.codex-exec-v0.run-id", "derivation.codex-exec-v0.event-id",
    "derivation.codex-exec-v0.source-position", "derivation.codex-exec-v0.field-projection", NormalizedEventKind.lifecycle.label].map
    String.utf8ByteSize = [6, 6, 7, 6, 11, 6, 8, 7, 4, 12, 6, 5, 8, 14, 27, 4, 13, 12, 11, 11, 8, 14, 4, 14, 10, 7, 18, 12, 4, 6, 4, 6, 1, 14, 12, 11,
      31, 33, 40, 41, 9] := by decide
  have null : textSize (compactChars host.floatText .null) = 4 := rfl
  have limit : maxTraceCompactJsonBytes = 8388608 := rfl
  simp only [List.map_cons, List.map_nil, List.cons.injEq] at keys
  simp only [List.forall_mem_cons] at numbers
  rw [length_compactBytes]
  refine (size_le_bound _).trans ?_
  -- The digests stay as they are: only their length counts.
  simp only [traceJson, failedTrace, failedEvent, failedTurn, failedRecords, failedTurnJson, List.map_cons, List.map_nil, List.zip_cons_cons,
    List.zip_nil_left, List.zipIdx_cons, List.zipIdx_nil, threadStarted_payload, turnStarted_payload, turnFailed_payload, eventJson, evidencedJson, derivedFrom, derived, sizeBound, fieldsBound,
    valuesBound, option, evidenceJson, bindingJson, locatorJson, sealJson, recordReferenceJson, valueJson, treeJson, stringValue, locator, rule,
    eventRule, runRule, positionRule, fieldRule, artifactDigest, sourceLocatorDigest, rawRecordDigest, rawCaptureSeal, eventId, failedRunId, runId,
    String.utf8ByteSize_append, utf8ByteSize_framedSha256, utf8ByteSize_digestTail (isDigest_framedSha256 _ _ _), Nat.reduceAdd, one_ne_zero,
    OfNat.ofNat_ne_zero, List.length_cons, List.length_nil, if_true, if_false, keys, null]
  ring_nf
  omega

end

section

def exampleAdapter : AdapterHost := { exampleHost with file := fun _ => [] }

def exampleThread : String := "00000000-0000-7000-8000-000000000000"

def examplePolicy : ArtifactBinding := ⟨"policy.example", "0", artifactDigest exampleAdapter.sha256 []⟩

theorem examplePolicy_valid : BindingValid examplePolicy :=
  ⟨by show isAsciiName "policy.example" = true; decide, by show isAsciiVersion "0" = true; decide, isDigest_framedSha256 _ _ _⟩

theorem examplePolicy_unreserved : isReserved examplePolicy.identity = false := by
  show isReserved "policy.example" = false
  decide

theorem fixedNonce_length : (List.replicate 32 (7 : UInt8)).length = 32 := rfl

def fixedNonce : NonceMaterial := ⟨.fixedSyntheticTest, List.replicate 32 7, fixedNonce_length⟩

theorem exampleTurn_runId : failedRunId exampleAdapter exampleThread = "run-1f19c0f63d63c98d3c04cfedb3c67ca1485d5947ae743545fa1a99ecce3ded92" := by
  decide +kernel

def exampleEventIds : List String := ["event-815d08989a901b0f7cfae0ac81d0c10a4ab81c8f4500e1f3e763ccf7d4728abc",
  "event-f18ec9d07e3cee20f5dfccc006b955928cabf381532dbbb9a53cd2e0a6686aaf",
  "event-06687a443d2ae305d45ba26a526ba7e2f58469dde91a971a048cf838fd867798"]

theorem exampleTurn_eventIds : (failedRecords exampleAdapter exampleThread).zipIdx.map (fun entry => eventId exampleAdapter
    "run-1f19c0f63d63c98d3c04cfedb3c67ca1485d5947ae743545fa1a99ecce3ded92" entry.2 entry.1) = exampleEventIds := by
  decide +kernel

theorem exampleTurn : EvaluatedTurn exampleAdapter exampleThread examplePolicy where
  framed := by
    have accepted : (parseOwned exampleAdapter.reader (failedJsonl exampleAdapter exampleThread)).toBool = true := by decide +kernel
    obtain ⟨capture, parsed⟩ := exists_of_toBool accepted
    have records : plainRecords (failedJsonl exampleAdapter exampleThread) = failedRecords exampleAdapter exampleThread := by decide +kernel
    exact ⟨capture, parsed, (parseOwned_slices parsed).trans records⟩
  fits := {
    charges := by constructor <;> decide +kernel
    compact := failedTrace_size (by decide) examplePolicy_valid
    distinct := by
      rw [failedTrace_ids, exampleTurn_runId, exampleTurn_eventIds]
      decide }
  uuid := by decide

end

end Legitimacy.CodexExec
