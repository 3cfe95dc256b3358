import Legitimacy.CodexExec.RecordParsing
import Legitimacy.CodexExec.Receipt

namespace Legitimacy.CodexExec

open Trajectory

structure Mapped where
  trace : TrajectoryTrace
  validationDeclarations : TrajectoryValidationContext

def mappingRecord (index : Nat) (path : String) : AdapterError := .record .mapping index path

section

def stringValue (text : String) : NormalizedValue := ⟨.string text, trivial⟩

def integerValue (digits : String) : NormalizedValue := ⟨.integer digits, trivial⟩

def nullValue : NormalizedValue := ⟨.null, trivial⟩

def stringsValue (texts : List String) : NormalizedValue where
  tree := .array (texts.map .string)
  ordered := allOrdered_iff.2 fun value member => by
    obtain ⟨text, -, rfl⟩ := List.mem_map.1 member
    trivial

def booleansValue (flags : List Bool) : NormalizedValue where
  tree := .array (flags.map .boolean)
  ordered := allOrdered_iff.2 fun value member => by
    obtain ⟨flag, -, rfl⟩ := List.mem_map.1 member
    trivial

end

section

def sourceEvent : ParsedRecord → String
  | .threadStarted _ => "thread.started"
  | .turnStarted => "turn.started"
  | .turnCompleted _ => "turn.completed"
  | .turnFailed _ => "turn.failed"
  | .error _ => "error"
  | .item .started _ => "item.started"
  | .item .updated _ => "item.updated"
  | .item .completed _ => "item.completed"

def itemType : Item → String
  | .agentMessage _ _ => "agent-message"
  | .reasoning _ _ => "reasoning-summary"
  | .error _ _ => "item-error-projection"
  | .command _ _ _ _ _ => "command-execution"
  | .fileChange _ _ _ => "file-change"
  | .todoList _ _ => "todo-list"

def lifecycleLabel : Lifecycle → String
  | .started => "started"
  | .updated => "updated"
  | .completed => "completed"

def commandStatus : CommandStatus → String
  | .inProgress => "in-progress"
  | .completed => "completed"
  | .failed => "failed"
  | .declined => "declined"

def fileStatus : FileStatus → String
  | .inProgress => "in-progress"
  | .completed => "completed"
  | .failed => "failed-or-declined-projection"

def changeKindLabel : ChangeKind → String
  | .add => "add"
  | .delete => "delete"
  | .update => "update"

def normalizedKind (record : ParsedRecord) (index : Nat) : Except AdapterError NormalizedEventKind :=
  match record with
  | .threadStarted _ => .ok .lifecycle
  | .turnStarted => .ok .lifecycle
  | .turnCompleted _ => .ok .lifecycle
  | .turnFailed _ => .ok .lifecycle
  | .item _ (.todoList _ _) => .ok .lifecycle
  | .error _ => .ok .observation
  | .item .completed (.error _ _) => .ok .observation
  | .item .completed (.agentMessage _ _) => .ok .message
  | .item .completed (.reasoning _ _) => .ok .message
  | .item .started (.command _ _ _ _ _) => .ok .actionRequest
  | .item .started (.fileChange _ _ _) => .ok .actionRequest
  | .item .completed (.command _ _ _ _ _) => .ok .actionResult
  | .item .completed (.fileChange _ _ _) => .ok .actionResult
  | .item _ _ => .error (mappingRecord index "$.item")

end

section

variable (sha256 : List UInt8 → Digest)

def locator (index : Nat) (raw : List UInt8) : SourceLocator := ⟨.ofNat index, 0, .ofNat raw.length, sourceLocatorDigest sha256 raw⟩

def rule (identity ruleText : String) : ArtifactBinding := ⟨identity, "0", artifactDigest sha256 (Utf8.bytes ruleText)⟩

def runRule : ArtifactBinding :=
  rule sha256 "derivation.codex-exec-v0.run-id" "run-id := hash(thread-started-whole-record-digest, decoded-canonical-thread-id)"

def eventRule : ArtifactBinding :=
  rule sha256 "derivation.codex-exec-v0.event-id" "event-id := hash(normalized-run-id, source-position, whole-raw-record-digest)"

def positionRule : ArtifactBinding :=
  rule sha256 "derivation.codex-exec-v0.source-position" "sequence-index := zero-based-source-record-position"

def fieldRule : ArtifactBinding :=
  rule sha256 "derivation.codex-exec-v0.field-projection" "field-projection := closed-v0-table(decoded-source-fields, whole-raw-record)"

def derivedFrom {α : Type} (value : α) (rule : ArtifactBinding) (sourceInputs : List SourceLocator) : Evidenced α :=
  ⟨some value, .declaredDerivationBinding rule sourceInputs⟩

def derived {α : Type} (value : α) (rule : ArtifactBinding) (source : SourceLocator) : Evidenced α := derivedFrom value rule [source]

def digestTail (digest : String) : String := .ofList (digest.toList.drop "sha256:".length)

end

section

abbrev Payload : Type := BTreeMap String (Evidenced NormalizedValue)

variable (rule : ArtifactBinding) (source : SourceLocator)

def addValue (key : String) (value : NormalizedValue) (payload : Payload) : Payload := payload.insert key (derived value rule source)

def addString (key value : String) : Payload → Payload := addValue rule source key (stringValue value)

def addInteger (key : String) (value : Int) : Payload → Payload := addValue rule source key (integerValue value.repr)

def addItemPayload (item : Item) (payload : Payload) : Payload :=
  match item with
  | .command _ _ _ exitCode status =>
    addValue rule source "exit-code" (exitCode.elim nullValue fun value => integerValue value.repr)
      (addString rule source "source-status" (commandStatus status) payload)
  | .fileChange _ changes status =>
    addValue rule source "change-kinds" (stringsValue (changes.map fun change => changeKindLabel change.kind))
      (addValue rule source "change-count" (integerValue changes.length.repr)
        (addString rule source "source-status" (fileStatus status) payload))
  | .todoList _ items => addValue rule source "todo-completed" (booleansValue (items.map Todo.completed)) payload
  | .agentMessage _ _ => payload
  | .reasoning _ _ => payload
  | .error _ _ => payload

def addRecordPayload (record : ParsedRecord) (payload : Payload) : Payload :=
  match record with
  | .threadStarted threadId => addString rule source "observed-thread-id" threadId payload
  | .turnCompleted usage =>
    addString rule source "usage-projection" "emitter-total-or-zero-default"
      (addInteger rule source "reasoning-output-tokens" usage.reasoningOutputTokens
        (addInteger rule source "output-tokens" usage.outputTokens
          (addInteger rule source "cached-input-tokens" usage.cachedInputTokens
            (addInteger rule source "input-tokens" usage.inputTokens payload))))
  | .item lifecycle item =>
    addItemPayload rule source item
      (addString rule source "source-lifecycle" (lifecycleLabel lifecycle) (addString rule source "source-item-type" (itemType item) payload))
  | _ => payload

def sourceItemId : ParsedRecord → Option (Evidenced String)
  | .item _ item => some (derived item.id rule source)
  | _ => none

end

section

variable (host : AdapterHost)

def runId (recordZero : List UInt8) (threadId : String) : String :=
  "run-" ++ digestTail (framedSha256 host.sha256 "legitimacy.codex-exec-v0.run-id.v0"
    [Utf8.bytes (rawRecordDigest host.sha256 recordZero), Utf8.bytes threadId])

def eventId (runId : String) (index : Nat) (raw : List UInt8) : String :=
  "event-" ++ digestTail (framedSha256 host.sha256 "legitimacy.codex-exec-v0.event-id.v0"
    [Utf8.bytes runId, PrefixCode.bigEndian (.ofNat index), Utf8.bytes (rawRecordDigest host.sha256 raw)])

def mapEvent (recordZero : List UInt8) (runId : String) (entry : (ParsedRecord × List UInt8) × Nat) :
    Except AdapterError AgentActionEvent := do
  let ((record, raw), index) := entry
  let source := locator host.sha256 index raw
  let recordZeroSource := locator host.sha256 0 recordZero
  let fieldRule := fieldRule host.sha256
  let payload := addRecordPayload fieldRule source record (addString fieldRule source "source-event" (sourceEvent record) ∅)
  let kind ← normalizedKind record index
  .ok {
    eventId := derivedFrom (eventId host runId index raw) (eventRule host.sha256)
      (if index = 0 then [recordZeroSource] else [recordZeroSource, source])
    sequenceIndex := derived (.ofNat index) (positionRule host.sha256) source
    kind := derived kind fieldRule source
    sourceItemId := sourceItemId fieldRule source record
    rawRecord := ⟨.ofNat index, rawRecordDigest host.sha256 raw⟩
    payload }

def mapRecordsWithBindings (records : List ParsedRecord) (rawRecords : List (List UInt8)) (rawCapture : RawCaptureSeal)
    (downstreamPolicy : ArtifactBinding) : Except AdapterError Mapped := do
  if records.length ≠ rawRecords.length then .error (mappingRecord (min records.length rawRecords.length) "$")
  else
    let (threadId, recordZero) ← match records, rawRecords with
      | .threadStarted threadId :: _, raw :: _ => Except.ok (threadId, raw)
      | _ :: _, _ :: _ => .error (mappingRecord 0 "$.type")
      | _, _ => .error (.new .mapping)
    let runId := runId host recordZero threadId
    let events ← (records.zip rawRecords).zipIdx.mapM (mapEvent host recordZero runId)
    .ok {
      trace := {
        schema := host.schemaBinding
        runId := derived runId (runRule host.sha256) (locator host.sha256 0 recordZero)
        adapter := host.adapterBinding
        policy := downstreamPolicy
        rawCapture, events }
      validationDeclarations := {
        adapter := host.adapterBinding
        policy := downstreamPolicy
        rawCapture
        allowedDerivations := [runRule host.sha256, eventRule host.sha256, positionRule host.sha256, fieldRule host.sha256] } }

end

end Legitimacy.CodexExec
