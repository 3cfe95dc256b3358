import Legitimacy.Trajectory.Budget
import Legitimacy.Trajectory.JsonScan
import Legitimacy.Trajectory.TraceJson

namespace Legitimacy.Trajectory

open ExceptRun

/-- What the code takes from its crates and from the repository's schema file. -/
structure Host where
  sha256 : List UInt8 → Digest
  reader : JsonReader
  /-- The text of a finite float in a JSON text. -/
  floatText : Float → String
  schemaBytes : List UInt8

def Host.schemaBinding (host : Host) : ArtifactBinding := Trajectory.schemaBinding host.sha256 host.schemaBytes

def serializeBoundedCompactJson (host : Host) (trace : TrajectoryTrace) : Except LegitimacyError (List UInt8) :=
  let bytes := (traceJson trace).compactBytes host.floatText
  if maxTraceCompactJsonBytes < bytes.length then
    invalid s!"trajectory trace official compact JSON exceeds v0 byte limit of {maxTraceCompactJsonBytes}"
  else .ok bytes

section

def isLowerName (byte : UInt8) : Bool := (97 ≤ byte && byte ≤ 122) || (48 ≤ byte && byte ≤ 57)

def isUpper (byte : UInt8) : Bool := 65 ≤ byte && byte ≤ 90

/-- A class of first bytes, and of the bytes that may follow. -/
def allBytes (first later : UInt8 → Bool) : List UInt8 → Bool
  | [] => true
  | byte :: rest => first byte && rest.all later

def isAsciiName (value : String) : Bool :=
  value ≠ "" && value.utf8ByteSize ≤ 128 &&
    allBytes isLowerName (fun byte => isLowerName byte || byte == 46 || byte == 45 || byte == 95) (Utf8.bytes value)

def isAsciiVersion (value : String) : Bool :=
  value ≠ "" && value.utf8ByteSize ≤ 64 &&
    (Utf8.bytes value).all fun byte => isLowerName byte || isUpper byte || byte == 46 || byte == 45 || byte == 95 || byte == 43

def isIdentifier (value : String) : Bool :=
  value ≠ "" && value.utf8ByteSize ≤ maxIdentifierBytes && value ≠ "unknown" &&
    allBytes (fun byte => isLowerName byte || isUpper byte)
      (fun byte => isLowerName byte || isUpper byte || byte == 46 || byte == 95 || byte == 58 || byte == 64 || byte == 47 || byte == 43 ||
        byte == 45) (Utf8.bytes value)

def stripPrefix (literal : String) (value : String) : Option String :=
  if literal.toList.isPrefixOf value.toList then some (.ofList (value.toList.drop literal.length)) else none

def isHexByte (byte : UInt8) : Bool := (48 ≤ byte && byte ≤ 57) || (97 ≤ byte && byte ≤ 102)

def validateAsciiName (name value : String) : Except LegitimacyError Unit :=
  if !isAsciiName value then invalid s!"{name} must be 1..128 lowercase ASCII name characters" else .ok ⟨⟩

def validateAsciiVersion (name value : String) : Except LegitimacyError Unit :=
  if !isAsciiVersion value then invalid s!"{name} must be 1..64 restricted printable ASCII characters" else .ok ⟨⟩

def validateIdentifier (name value : String) : Except LegitimacyError Unit :=
  if !isIdentifier value then
    invalid s!"{name} must be 1..{maxIdentifierBytes} bytes in the v0 printable ASCII identity profile and must not equal 'unknown'"
  else .ok ⟨⟩

def validatePayloadKey (value : String) : Except LegitimacyError Unit := validateAsciiName "payload field name" value

def validateDigest (name value : String) : Except LegitimacyError Unit :=
  match stripPrefix "sha256:" value with
  | none => invalid s!"{name} must use 'sha256:' spelling"
  | some hex =>
    if hex.utf8ByteSize ≠ 64 || !(Utf8.bytes hex).all isHexByte then
      invalid s!"{name} must contain exactly 64 lowercase hexadecimal digits"
    else .ok ⟨⟩

def validateBinding (name : String) (binding : ArtifactBinding) : Except LegitimacyError Unit := do
  validateAsciiName s!"{name} identity" binding.identity
  validateAsciiVersion s!"{name} version" binding.version
  validateDigest s!"{name} hash" binding.hash

end

section

structure ValidationState where
  locatorDigests : List (LocatorRange × String)
  locatorHashes : Nat

variable (sha256 : List UInt8 → Digest) (rawRecords : List (List UInt8)) (declarations : TrajectoryValidationContext)

def locate (locator : SourceLocator) : Except LegitimacyError (List UInt8) := do
  let record ← (rawRecords[locator.recordIndex.toNat]?).elim
    (invalid s!"source locator record index {locator.recordIndex} is outside the sealed capture") .ok
  let finish := locator.byteOffset.toNat + locator.byteLength.toNat
  if 2 ^ 64 ≤ finish then invalid "source locator byte range overflows usize"
  else if record.length < finish then invalid "source locator byte range is outside the sealed record"
  else .ok ((record.drop locator.byteOffset.toNat).take locator.byteLength.toNat)

/-- The digest of a range, computed once. -/
def locatorDigest (state : ValidationState) (locator : SourceLocator) : Except LegitimacyError (String × ValidationState) :=
  match state.locatorDigests.lookup locator.range with
  | some digest => .ok (digest, state)
  | none => do
    let located ← locate rawRecords locator
    let digest := sourceLocatorDigest sha256 located
    .ok (digest, ⟨(locator.range, digest) :: state.locatorDigests, state.locatorHashes + 1⟩)

def validateLocator (state : ValidationState) (locator : SourceLocator) : Except LegitimacyError ValidationState := do
  validateDigest "source-locator digest" locator.digest
  if locator.byteLength = 0 then invalid "source locator byte_length must be nonzero"
  else
    let (actual, state) ← locatorDigest sha256 rawRecords state locator
    if locator.digest ≠ actual then invalid "source locator digest does not match the sealed bytes" else .ok state

def validateInput (name : String) (entry : ValidationState × List LocatorRange) (locator : SourceLocator) :
    Except LegitimacyError (ValidationState × List LocatorRange) := do
  let state ← validateLocator sha256 rawRecords entry.1 locator
  if locator.range ∈ entry.2 then invalid s!"field '{name}' derivation repeats a source input"
  else .ok (state, locator.range :: entry.2)

def validateEvidence (name : String) (state : ValidationState) : Evidence → Except LegitimacyError ValidationState
  | .citesRawRange locator => validateLocator sha256 rawRecords state locator
  | .declaredDerivationBinding rule sourceInputs => do
    validateBinding "derivation rule" rule
    if rule ∉ declarations.allowedDerivations then invalid s!"field '{name}' uses an undeclared derivation rule binding"
    else if sourceInputs.isEmpty then invalid s!"field '{name}' derivation has no declared source inputs"
    else
      let entry ← sourceInputs.foldlM (validateInput sha256 rawRecords name) (state, [])
      .ok entry.1
  | .unavailable reason =>
    if isBlank reason then invalid s!"field '{name}' unavailable evidence requires a reason"
    else invalid s!"load-bearing field '{name}' has unavailable evidence"

def validateRequiredField {α : Type} (name : String) (field : Evidenced α) (state : ValidationState) :
    Except LegitimacyError (α × ValidationState) := do
  let state ← validateEvidence sha256 rawRecords declarations name state field.evidence
  let value ← field.value.elim (invalid s!"load-bearing field '{name}' is missing a normalized value") .ok
  .ok (value, state)

def validateInteger (path digits : String) : Except LegitimacyError Unit :=
  let unsigned := (stripPrefix "-" digits).getD digits
  if maxIntegerDigits < unsigned.utf8ByteSize then invalid s!"{path} integer exceeds v0 digit limit of {maxIntegerDigits}"
  else if unsigned = "" || !(Utf8.bytes unsigned).all (fun byte => 48 ≤ byte && byte ≤ 57) ||
      (decide (1 < unsigned.utf8ByteSize) && startsWith unsigned "0") || digits = "-0" then
    invalid s!"{path} integer must be canonical base-10 with no leading zero"
  else .ok ⟨⟩

mutual

def validateNormalizedValue (path : String) : NormalizedTree → Except LegitimacyError Unit
  | .integer digits => validateInteger path digits
  | .string text =>
    if maxNormalizedStringScalars < text.length then invalid s!"{path} string exceeds v0 scalar limit of {maxNormalizedStringScalars}"
    else .ok ⟨⟩
  | .array values => validateNormalizedValues path 0 values
  | .object fields => validateNormalizedFields path fields
  | .null => .ok ⟨⟩
  | .boolean _ => .ok ⟨⟩

def validateNormalizedValues (path : String) (index : Nat) : List NormalizedTree → Except LegitimacyError Unit
  | [] => .ok ⟨⟩
  | value :: rest => do
    validateNormalizedValue s!"{path}[{index}]" value
    validateNormalizedValues path (index + 1) rest

def validateNormalizedFields (path : String) : List (String × NormalizedTree) → Except LegitimacyError Unit
  | [] => .ok ⟨⟩
  | (key, value) :: rest => do
    validatePayloadKey key
    validateNormalizedValue s!"{path}.{key}" value
    validateNormalizedFields path rest

end

def validatePayloadField (state : ValidationState) (field : String × Evidenced NormalizedValue) :
    Except LegitimacyError ValidationState := do
  validatePayloadKey field.1
  let (value, state) ← validateRequiredField sha256 rawRecords declarations s!"payload.{field.1}" field.2 state
  validateNormalizedValue s!"payload.{field.1}" value.tree
  .ok state

def validateSourceItem (state : ValidationState) : Option (Evidenced String) → Except LegitimacyError ValidationState
  | some sourceItemId => do
    let (value, state) ← validateRequiredField sha256 rawRecords declarations "source_item_id" sourceItemId state
    validateIdentifier "source_item_id" value
    .ok state
  | none => .ok state

structure EventLoop where
  state : ValidationState
  eventIds : List String

def validateEvent (loop : EventLoop) (entry : AgentActionEvent × Nat) : Except LegitimacyError EventLoop := do
  let event := entry.1
  let expectedIndex : UInt64 := .ofNat entry.2
  let (eventId, state) ← validateRequiredField sha256 rawRecords declarations "event_id" event.eventId loop.state
  validateIdentifier "event_id" eventId
  if eventId ∈ loop.eventIds then invalid s!"duplicate event identity '{eventId}'"
  else
    let (sequenceIndex, state) ← validateRequiredField sha256 rawRecords declarations "sequence_index" event.sequenceIndex state
    if sequenceIndex ≠ expectedIndex then
      invalid s!"event '{eventId}' sequence index {sequenceIndex} is not contiguous source position {expectedIndex}"
    else
      let (_, state) ← validateRequiredField sha256 rawRecords declarations "kind" event.kind state
      let state ← validateSourceItem sha256 rawRecords declarations state event.sourceItemId
      if event.rawRecord.recordIndex ≠ expectedIndex then
        invalid s!"event '{eventId}' raw record index {event.rawRecord.recordIndex} does not match source position {expectedIndex}"
      else
        validateDigest "raw-record digest" event.rawRecord.digest
        if event.rawRecord.digest ≠ rawRecordDigest sha256 (rawRecords.getD entry.2 []) then
          invalid s!"event '{eventId}' raw-record digest does not match sealed record {entry.2}"
        else
          let state ← event.payload.toList.foldlM (validatePayloadField sha256 rawRecords declarations) state
          .ok ⟨state, eventId :: loop.eventIds⟩

end

def validateRawRecord (host : Host) (entry : List UInt8 × Nat) : Except LegitimacyError Unit :=
  match rejectDuplicateJsonKeys host.reader entry.1 with
  | .error _ => .error (.json "sealed raw record")
  | .ok kind => if kind ≠ .object then invalid s!"raw record {entry.2} must be a JSON object" else .ok ⟨⟩

def validateTrace (host : Host) (trace : TrajectoryTrace) (rawRecords : List (List UInt8)) (declarations : TrajectoryValidationContext) :
    Except LegitimacyError Unit := do
  validateResourceBudget trace rawRecords declarations
  let _ ← serializeBoundedCompactJson host trace
  validateBinding "schema" trace.schema
  validateBinding "adapter" trace.adapter
  validateBinding "policy" trace.policy
  validateBinding "declared adapter" declarations.adapter
  validateBinding "declared policy" declarations.policy
  if trace.schema ≠ host.schemaBinding then invalid "schema identity, version, or hash mismatch"
  else if trace.adapter ≠ declarations.adapter then invalid "adapter identity, version, or hash mismatch"
  else if trace.policy ≠ declarations.policy then invalid "policy identity, version, or hash mismatch"
  else
    validateDigest "declared raw-capture digest" trace.rawCapture.digest
    validateDigest "declared raw-capture digest" declarations.rawCapture.digest
    if trace.rawCapture ≠ declarations.rawCapture then invalid "trace raw-capture seal does not match the declared seal"
    else
      rawRecords.zipIdx.forM (validateRawRecord host)
      if trace.rawCapture ≠ rawCaptureSeal host.sha256 rawRecords then
        invalid "sealed raw capture bytes or record count do not match the declaration"
      else
        let (runId, state) ← validateRequiredField host.sha256 rawRecords declarations "run_id" trace.runId ⟨[], 0⟩
        validateIdentifier "run_id" runId
        let _ ← trace.events.zipIdx.foldlM (validateEvent host.sha256 rawRecords declarations) ⟨state, []⟩
        .ok ⟨⟩

structure ValidatedTrajectoryTrace (host : Host) where
  trace : TrajectoryTrace
  rawRecords : List (List UInt8)
  declarations : TrajectoryValidationContext
  accepted : validateTrace host trace rawRecords declarations = .ok ⟨⟩

end Legitimacy.Trajectory
