import Legitimacy.Error
import Legitimacy.ExceptRun
import Legitimacy.Trajectory.CanonicalBytes

namespace Legitimacy.Trajectory

open ExceptRun

def invalid {α : Type} (message : String) : Except LegitimacyError α := .error (.invalidInput message)

def checkShortString (name value : String) (maxBytes : Nat) (kind : String) : Except LegitimacyError Unit :=
  if maxBytes < value.utf8ByteSize then invalid s!"{name} exceeds v0 {kind} byte limit of {maxBytes}" else .ok ⟨⟩

def checkBindingSizes (name : String) (binding : ArtifactBinding) : Except LegitimacyError Unit := do
  checkShortString s!"{name} identity" binding.identity 128 "artifact binding"
  checkShortString s!"{name} version" binding.version 64 "artifact binding"
  checkShortString s!"{name} hash" binding.hash 71 "digest"

def checkIdentifierSize (name : String) (value : Option String) : Except LegitimacyError Unit :=
  if value.any fun value => maxIdentifierBytes < value.utf8ByteSize then
    invalid s!"{name} exceeds v0 identifier byte limit of {maxIdentifierBytes}"
  else .ok ⟨⟩

/-- Record index, byte offset and byte length. -/
abbrev LocatorRange : Type := UInt64 × UInt64 × UInt64

instance : LawfulBEq LocatorRange := inferInstance

def SourceLocator.range (locator : SourceLocator) : LocatorRange := (locator.recordIndex, locator.byteOffset, locator.byteLength)

structure PayloadBudget where
  payloadFields : Nat
  payloadContentBytes : Nat
  normalizedNodes : Nat
  evidenceLocators : Nat
  distinctRanges : List LocatorRange
  distinctCitedBytes : Nat

def PayloadBudget.initial : PayloadBudget := ⟨0, 0, 0, 0, [], 0⟩

def addContentBytes (bytes : Nat) (budget : PayloadBudget) : Except LegitimacyError PayloadBudget :=
  if maxPayloadContentBytesTotal < budget.payloadContentBytes + bytes then
    invalid s!"payload content bytes exceed v0 total limit of {maxPayloadContentBytesTotal}"
  else .ok { budget with payloadContentBytes := budget.payloadContentBytes + bytes }

def addField (keyBytes : Nat) (budget : PayloadBudget) : Except LegitimacyError PayloadBudget :=
  if maxPayloadFieldsTotal < budget.payloadFields + 1 then
    invalid s!"payload field count exceeds v0 total limit of {maxPayloadFieldsTotal}"
  else addContentBytes keyBytes { budget with payloadFields := budget.payloadFields + 1 }

def addLocator (budget : PayloadBudget) (locator : SourceLocator) : Except LegitimacyError PayloadBudget := do
  checkShortString "source-locator digest" locator.digest 71 "digest"
  if maxEvidenceLocators < budget.evidenceLocators + 1 then
    invalid s!"evidence locator count exceeds v0 limit of {maxEvidenceLocators}"
  else if locator.range ∈ budget.distinctRanges then .ok { budget with evidenceLocators := budget.evidenceLocators + 1 }
  else if 2 ^ 64 ≤ budget.distinctCitedBytes + locator.byteLength.toNat then invalid "distinct cited byte count overflow"
  else if maxDistinctCitedBytes < budget.distinctCitedBytes + locator.byteLength.toNat then
    invalid s!"distinct cited bytes exceed v0 limit of {maxDistinctCitedBytes}"
  else
    .ok { budget with
      evidenceLocators := budget.evidenceLocators + 1
      distinctRanges := locator.range :: budget.distinctRanges
      distinctCitedBytes := budget.distinctCitedBytes + locator.byteLength.toNat }

def addEvidence (budget : PayloadBudget) : Evidence → Except LegitimacyError PayloadBudget
  | .citesRawRange locator => addLocator budget locator
  | .declaredDerivationBinding rule sourceInputs => do
    checkBindingSizes "derivation rule" rule
    if maxDerivationInputs < sourceInputs.length then
      invalid s!"derivation source input count exceeds v0 limit of {maxDerivationInputs}"
    else sourceInputs.foldlM addLocator budget
  | .unavailable reason =>
    if maxEvidenceReasonBytes < reason.utf8ByteSize then
      invalid s!"unavailable evidence reason exceeds v0 byte limit of {maxEvidenceReasonBytes}"
    else .ok budget

def enterValue (depth : Nat) (budget : PayloadBudget) : Except LegitimacyError PayloadBudget :=
  if maxNormalizedDepth < depth then invalid s!"normalized value depth exceeds v0 limit of {maxNormalizedDepth}"
  else if maxNormalizedNodes < budget.normalizedNodes + 1 then
    invalid s!"normalized node count exceeds v0 limit of {maxNormalizedNodes}"
  else .ok { budget with normalizedNodes := budget.normalizedNodes + 1 }

mutual

def addNormalizedValue (depth : Nat) (budget : PayloadBudget) : NormalizedTree → Except LegitimacyError PayloadBudget
  | .array values => do
    let budget ← enterValue depth budget
    if maxNormalizedArrayItems < values.length then
      invalid s!"normalized array size exceeds v0 limit of {maxNormalizedArrayItems}"
    else addNormalizedValues (depth + 1) budget values
  | .object fields => do
    let budget ← enterValue depth budget
    if maxPayloadFieldsPerObject < fields.length then
      invalid s!"normalized object field count exceeds v0 per-object limit of {maxPayloadFieldsPerObject}"
    else addNormalizedFields (depth + 1) budget fields
  | .integer digits => do
    let budget ← enterValue depth budget
    if maxIntegerDigits + 1 < digits.utf8ByteSize then
      invalid s!"normalized integer exceeds v0 digit limit of {maxIntegerDigits}"
    else addContentBytes digits.utf8ByteSize budget
  | .string text => do
    let budget ← enterValue depth budget
    if maxNormalizedStringBytes < text.utf8ByteSize then
      invalid s!"normalized string exceeds v0 byte limit of {maxNormalizedStringBytes}"
    else addContentBytes text.utf8ByteSize budget
  | .null => enterValue depth budget
  | .boolean _ => enterValue depth budget

def addNormalizedValues (depth : Nat) (budget : PayloadBudget) : List NormalizedTree → Except LegitimacyError PayloadBudget
  | [] => .ok budget
  | value :: rest => do
    let budget ← addNormalizedValue depth budget value
    addNormalizedValues depth budget rest

def addNormalizedFields (depth : Nat) (budget : PayloadBudget) :
    List (String × NormalizedTree) → Except LegitimacyError PayloadBudget
  | [] => .ok budget
  | (fieldName, value) :: rest => do
    checkShortString "normalized object field name" fieldName 128 "artifact name"
    let budget ← addField fieldName.utf8ByteSize budget
    let budget ← addNormalizedValue depth budget value
    addNormalizedFields depth budget rest

end

def addPayloadField (budget : PayloadBudget) (field : String × Evidenced NormalizedValue) : Except LegitimacyError PayloadBudget := do
  checkShortString "payload field name" field.1 128 "artifact name"
  let budget ← addField field.1.utf8ByteSize budget
  let budget ← addEvidence budget field.2.evidence
  match field.2.value with
  | some value => addNormalizedValue 1 budget value.tree
  | none => .ok budget

def addSourceItem (budget : PayloadBudget) : Option (Evidenced String) → Except LegitimacyError PayloadBudget
  | some sourceItemId => do
    let budget ← addEvidence budget sourceItemId.evidence
    checkIdentifierSize "source_item_id" sourceItemId.value
    .ok budget
  | none => .ok budget

def addEvent (budget : PayloadBudget) (event : AgentActionEvent) : Except LegitimacyError PayloadBudget := do
  if maxPayloadFieldsPerObject < event.payload.size then
    invalid s!"event payload field count exceeds v0 per-object limit of {maxPayloadFieldsPerObject}"
  else
    let budget ← addEvidence budget event.eventId.evidence
    let budget ← addEvidence budget event.sequenceIndex.evidence
    let budget ← addEvidence budget event.kind.evidence
    checkShortString "raw-record digest" event.rawRecord.digest 71 "digest"
    checkIdentifierSize "event_id" event.eventId.value
    let budget ← addSourceItem budget event.sourceItemId
    event.payload.toList.foldlM addPayloadField budget

def addRawRecord (bytes : Nat) (record : List UInt8) : Except LegitimacyError Nat :=
  if maxRawRecordBytes < record.length then invalid s!"raw record bytes exceed v0 per-record limit of {maxRawRecordBytes}"
  else if maxRawCaptureBytes < bytes + record.length then invalid s!"raw capture bytes exceed v0 limit of {maxRawCaptureBytes}"
  else .ok (bytes + record.length)

def validateResourceBudget (trace : TrajectoryTrace) (rawRecords : List (List UInt8)) (declarations : TrajectoryValidationContext) :
    Except LegitimacyError Unit := do
  if maxRawRecords < rawRecords.length then invalid s!"raw record count exceeds v0 limit of {maxRawRecords}"
  else if maxEvents < trace.events.length then invalid s!"event count exceeds v0 limit of {maxEvents}"
  else
    let _ ← rawRecords.foldlM addRawRecord 0
    if .ofNat rawRecords.length ≠ trace.rawCapture.recordCount then
      invalid "sealed raw capture bytes or record count do not match the declaration"
    else if trace.events.isEmpty then invalid "trajectory must contain at least one event"
    else if trace.events.length ≠ rawRecords.length then invalid "each sealed raw record must have exactly one normalized event"
    else
      checkBindingSizes "schema" trace.schema
      checkBindingSizes "adapter" trace.adapter
      checkBindingSizes "policy" trace.policy
      checkBindingSizes "declared adapter" declarations.adapter
      checkBindingSizes "declared policy" declarations.policy
      checkShortString "declared raw-capture digest" trace.rawCapture.digest 71 "digest"
      checkShortString "declared raw-capture digest" declarations.rawCapture.digest 71 "digest"
      let budget ← addEvidence .initial trace.runId.evidence
      checkIdentifierSize "run_id" trace.runId.value
      let _ ← trace.events.foldlM addEvent budget
      .ok ⟨⟩

def LocatorFits (locator : SourceLocator) : Prop := locator.digest.utf8ByteSize ≤ 71

structure BindingFits (binding : ArtifactBinding) : Prop where
  identity : binding.identity.utf8ByteSize ≤ 128
  version : binding.version.utf8ByteSize ≤ 64
  hash : binding.hash.utf8ByteSize ≤ 71

def EvidenceFits : Evidence → Prop
  | .citesRawRange locator => LocatorFits locator
  | .declaredDerivationBinding rule sourceInputs =>
    BindingFits rule ∧ sourceInputs.length ≤ maxDerivationInputs ∧ ∀ locator ∈ sourceInputs, LocatorFits locator
  | .unavailable reason => reason.utf8ByteSize ≤ maxEvidenceReasonBytes

mutual

def TreeFits (depth : Nat) : NormalizedTree → Prop
  | .null => depth ≤ maxNormalizedDepth
  | .boolean _ => depth ≤ maxNormalizedDepth
  | .integer digits => depth ≤ maxNormalizedDepth ∧ digits.utf8ByteSize ≤ maxIntegerDigits + 1
  | .string text => depth ≤ maxNormalizedDepth ∧ text.utf8ByteSize ≤ maxNormalizedStringBytes
  | .array values => depth ≤ maxNormalizedDepth ∧ values.length ≤ maxNormalizedArrayItems ∧ TreesFit (depth + 1) values
  | .object fields => depth ≤ maxNormalizedDepth ∧ fields.length ≤ maxPayloadFieldsPerObject ∧ FieldsFit (depth + 1) fields

def TreesFit (depth : Nat) : List NormalizedTree → Prop
  | [] => True
  | value :: rest => TreeFits depth value ∧ TreesFit depth rest

def FieldsFit (depth : Nat) : List (String × NormalizedTree) → Prop
  | [] => True
  | (key, value) :: rest => key.utf8ByteSize ≤ 128 ∧ TreeFits depth value ∧ FieldsFit depth rest

end

structure PayloadFieldFits (field : String × Evidenced NormalizedValue) : Prop where
  name : field.1.utf8ByteSize ≤ 128
  evidence : EvidenceFits field.2.evidence
  value : ∀ value ∈ field.2.value, TreeFits 1 value.tree

def IdentifierFits (field : Evidenced String) : Prop :=
  (∀ value ∈ field.value, value.utf8ByteSize ≤ maxIdentifierBytes) ∧ EvidenceFits field.evidence

structure EventFits (event : AgentActionEvent) : Prop where
  eventId : IdentifierFits event.eventId
  sequenceIndex : EvidenceFits event.sequenceIndex.evidence
  kind : EvidenceFits event.kind.evidence
  sourceItemId : ∀ field ∈ event.sourceItemId, IdentifierFits field
  rawRecord : event.rawRecord.digest.utf8ByteSize ≤ 71
  payloadSize : event.payload.size ≤ maxPayloadFieldsPerObject
  payload : ∀ field ∈ event.payload.toList, PayloadFieldFits field

structure TraceFits (trace : TrajectoryTrace) : Prop where
  schema : BindingFits trace.schema
  runId : IdentifierFits trace.runId
  adapter : BindingFits trace.adapter
  policy : BindingFits trace.policy
  rawCapture : trace.rawCapture.digest.utf8ByteSize ≤ 71
  eventCount : trace.events.length ≤ maxEvents
  events : ∀ event ∈ trace.events, EventFits event

section

theorem checkShortString_eq_ok {name value kind : String} {maxBytes : Nat} :
    checkShortString name value maxBytes kind = .ok ⟨⟩ ↔ value.utf8ByteSize ≤ maxBytes := by
  rw [checkShortString, invalid, guard_eq_ok, Nat.not_lt, and_iff_left rfl]

theorem checkBindingSizes_eq_ok {name : String} {binding : ArtifactBinding} :
    checkBindingSizes name binding = .ok ⟨⟩ ↔ BindingFits binding := by
  constructor
  · intro run
    obtain ⟨⟨⟩, identity, run⟩ := bind_eq_ok.1 run
    obtain ⟨⟨⟩, version, hash⟩ := bind_eq_ok.1 run
    exact ⟨checkShortString_eq_ok.1 identity, checkShortString_eq_ok.1 version, checkShortString_eq_ok.1 hash⟩
  · intro fits
    refine bind_eq_ok.2 ⟨⟨⟩, checkShortString_eq_ok.2 fits.identity, ?_⟩
    exact bind_eq_ok.2 ⟨⟨⟩, checkShortString_eq_ok.2 fits.version, checkShortString_eq_ok.2 fits.hash⟩

theorem checkIdentifierSize_eq_ok {name : String} {value : Option String} :
    checkIdentifierSize name value = .ok ⟨⟩ ↔ ∀ text ∈ value, text.utf8ByteSize ≤ maxIdentifierBytes := by
  rw [checkIdentifierSize, invalid, guard_eq_ok, and_iff_left rfl]
  cases value <;> simp

end

theorem treeFits_depth {tree : NormalizedTree} {depth : Nat} (fits : TreeFits depth tree) : depth ≤ maxNormalizedDepth := by
  cases tree with
  | null => exact fits
  | boolean value => exact fits
  | _ => exact fits.1

section

theorem shortString_of_le {value : String} {limit : Nat} (fits : value.utf8ByteSize ≤ limit) (small : limit < 2 ^ 64) :
    ShortString value := Nat.lt_of_le_of_lt fits small

theorem BindingFits.short {binding : ArtifactBinding} (fits : BindingFits binding) : ShortBinding binding :=
  ⟨shortString_of_le fits.identity (by decide), shortString_of_le fits.version (by decide), shortString_of_le fits.hash (by decide)⟩

theorem LocatorFits.short {locator : SourceLocator} (fits : LocatorFits locator) : ShortLocator locator :=
  shortString_of_le fits (by decide)

theorem EvidenceFits.short {evidence : Evidence} (fits : EvidenceFits evidence) : ShortEvidence evidence := by
  cases evidence with
  | citesRawRange locator => exact LocatorFits.short fits
  | declaredDerivationBinding rule sourceInputs =>
    obtain ⟨rule, count, locators⟩ := fits
    exact ⟨rule.short, Nat.lt_of_le_of_lt count (by decide), fun locator member => (locators locator member).short⟩
  | unavailable reason => exact shortString_of_le fits (by decide)

theorem IdentifierFits.short {field : Evidenced String} (fits : IdentifierFits field) : ShortEvidenced ShortString field :=
  ⟨fun value found => shortString_of_le (fits.1 value found) (by decide), fits.2.short⟩

mutual

theorem TreeFits.short : (tree : NormalizedTree) → ∀ {depth : Nat}, TreeFits depth tree → ShortTree tree
  | .null, _, _ => trivial
  | .boolean _, _, _ => trivial
  | .integer _, _, fits => shortString_of_le fits.2 (by decide)
  | .string _, _, fits => shortString_of_le fits.2 (by decide)
  | .array values, _, fits => ⟨Nat.lt_of_le_of_lt fits.2.1 (by decide), TreesFit.short values fits.2.2⟩
  | .object fields, _, fits => ⟨Nat.lt_of_le_of_lt fits.2.1 (by decide), FieldsFit.short fields fits.2.2⟩

theorem TreesFit.short : (values : List NormalizedTree) → ∀ {depth : Nat}, TreesFit depth values → ShortTrees values
  | [], _, _ => trivial
  | value :: rest, _, fits => ⟨TreeFits.short value fits.1, TreesFit.short rest fits.2⟩

theorem FieldsFit.short : (fields : List (String × NormalizedTree)) → ∀ {depth : Nat}, FieldsFit depth fields → ShortFields fields
  | [], _, _ => trivial
  | (key, value) :: rest, _, fits =>
    ⟨shortString_of_le fits.1 (by decide), TreeFits.short value fits.2.1, FieldsFit.short rest fits.2.2⟩

end

theorem EventFits.short {event : AgentActionEvent} (fits : EventFits event) : ShortEvent event where
  eventId := fits.eventId.short
  sequenceIndex := fits.sequenceIndex.short
  kind := fits.kind.short
  sourceItemId field found := (fits.sourceItemId field found).short
  rawRecord := shortString_of_le fits.rawRecord (by decide)
  payloadSize := Nat.lt_of_le_of_lt fits.payloadSize (by decide)
  payload field member := by
    have fitting := fits.payload field member
    exact ⟨shortString_of_le fitting.name (by decide), fun value found => TreeFits.short value.tree (fitting.value value found),
      fitting.evidence.short⟩

theorem TraceFits.short {trace : TrajectoryTrace} (fits : TraceFits trace) : ShortTrace trace where
  schema := fits.schema.short
  runId := fits.runId.short
  adapter := fits.adapter.short
  policy := fits.policy.short
  rawCapture := shortString_of_le fits.rawCapture (by decide)
  eventCount := Nat.lt_of_le_of_lt fits.eventCount (by decide)
  events event member := (fits.events event member).short

end

end Legitimacy.Trajectory
