import Legitimacy.Trajectory.BudgetTotals
import Legitimacy.Trajectory.LocatorMemo
import Legitimacy.Trajectory.SingleEvent

namespace Legitimacy.Trajectory

open ExceptRun Metering

section

/-- A decimal as `validate_integer` wants it. -/
structure IntegerValid (digits : String) : Prop where
  few : ((stripPrefix "-" digits).getD digits).utf8ByteSize ≤ maxIntegerDigits
  nonempty : (stripPrefix "-" digits).getD digits ≠ ""
  decimal : (Utf8.bytes ((stripPrefix "-" digits).getD digits)).all (fun byte => 48 ≤ byte && byte ≤ 57) = true
  shortest : 1 < ((stripPrefix "-" digits).getD digits).utf8ByteSize → startsWith ((stripPrefix "-" digits).getD digits) "0" = false
  positive : digits ≠ "-0"

mutual

def ValueValid : NormalizedTree → Prop
  | .integer digits => IntegerValid digits
  | .string text => text.length ≤ maxNormalizedStringScalars
  | .array values => ValuesValid values
  | .object fields => FieldsValid fields
  | .null => True
  | .boolean _ => True

def ValuesValid : List NormalizedTree → Prop
  | [] => True
  | value :: rest => ValueValid value ∧ ValuesValid rest

def FieldsValid : List (String × NormalizedTree) → Prop
  | [] => True
  | (key, value) :: rest => isAsciiName key = true ∧ ValueValid value ∧ FieldsValid rest

end

theorem validateInteger_eq_ok {path digits : String} : validateInteger path digits = .ok ⟨⟩ ↔ IntegerValid digits := by
  unfold validateInteger invalid
  dsimp only
  rw [guard_eq_ok, guard_eq_ok, Nat.not_lt]
  simp only [Bool.or_eq_true, Bool.and_eq_true, decide_eq_true_eq, Bool.not_eq_true', not_or, not_and, Bool.not_eq_true, and_true]
  constructor
  · rintro ⟨few, ⟨⟨nonempty, decimal⟩, shortest⟩, positive⟩
    exact ⟨few, nonempty, by simpa using decimal, shortest, positive⟩
  · rintro ⟨few, nonempty, decimal, shortest, positive⟩
    exact ⟨few, ⟨⟨nonempty, by simpa using decimal⟩, shortest⟩, positive⟩

mutual

theorem validateNormalizedValue_eq_ok : (tree : NormalizedTree) → ∀ {path : String}, validateNormalizedValue path tree = .ok ⟨⟩ ↔ ValueValid tree
  | .integer digits, _ => validateInteger_eq_ok
  | .string text, path => by
    unfold validateNormalizedValue invalid ValueValid
    rw [guard_eq_ok, Nat.not_lt, and_iff_left rfl]
  | .array values, path => validateNormalizedValues_eq_ok values
  | .object fields, path => validateNormalizedFields_eq_ok fields
  | .null, _ => iff_of_true rfl trivial
  | .boolean _, _ => iff_of_true rfl trivial

theorem validateNormalizedValues_eq_ok : (values : List NormalizedTree) → ∀ {path : String} {index : Nat},
    validateNormalizedValues path index values = .ok ⟨⟩ ↔ ValuesValid values
  | [], _, _ => iff_of_true rfl trivial
  | value :: rest, path, index => by
    unfold validateNormalizedValues ValuesValid
    rw [bind_eq_ok]
    constructor
    · rintro ⟨⟨⟩, here, later⟩
      exact ⟨(validateNormalizedValue_eq_ok value).1 here, (validateNormalizedValues_eq_ok rest).1 later⟩
    · rintro ⟨here, later⟩
      exact ⟨⟨⟩, (validateNormalizedValue_eq_ok value).2 here, (validateNormalizedValues_eq_ok rest).2 later⟩

theorem validateNormalizedFields_eq_ok : (fields : List (String × NormalizedTree)) → ∀ {path : String},
    validateNormalizedFields path fields = .ok ⟨⟩ ↔ FieldsValid fields
  | [], _ => iff_of_true rfl trivial
  | (key, value) :: rest, path => by
    unfold validateNormalizedFields FieldsValid validatePayloadKey
    rw [bind_eq_ok]
    constructor
    · rintro ⟨⟨⟩, name, run⟩
      obtain ⟨⟨⟩, here, later⟩ := bind_eq_ok.1 run
      exact ⟨validateAsciiName_eq_ok.1 name, (validateNormalizedValue_eq_ok value).1 here, (validateNormalizedFields_eq_ok rest).1 later⟩
    · rintro ⟨name, here, later⟩
      exact ⟨⟨⟩, validateAsciiName_eq_ok.2 name, bind_eq_ok.2 ⟨⟨⟩, (validateNormalizedValue_eq_ok value).2 here,
        (validateNormalizedFields_eq_ok rest).2 later⟩⟩

end

end

section

variable (sha256 : List UInt8 → Digest) (rawRecords : List (List UInt8)) (declarations : TrajectoryValidationContext)

/-- Evidence that can be checked: a valid locator, or a declared rule over some valid locators of different ranges. -/
def EvidenceValid : Evidence → Prop
  | .citesRawRange locator => LocatorValid sha256 rawRecords locator
  | .declaredDerivationBinding rule sourceInputs =>
    BindingValid rule ∧ rule ∈ declarations.allowedDerivations ∧ sourceInputs ≠ [] ∧
      (∀ locator ∈ sourceInputs, LocatorValid sha256 rawRecords locator) ∧ (sourceInputs.map SourceLocator.range).Nodup
  | .unavailable _ => False

/-- A field with evidence and an accepted value. -/
structure FieldValid {α : Type} (accepts : α → Prop) (field : Evidenced α) : Prop where
  evidence : EvidenceValid sha256 rawRecords declarations field.evidence
  value : ∃ value, field.value = some value ∧ accepts value

/-- The event that belongs to a position: its number, its record with the digest of this record, and valid fields. -/
structure EventValid (position : Nat) (event : AgentActionEvent) : Prop where
  eventId : FieldValid sha256 rawRecords declarations (isIdentifier · = true) event.eventId
  sequenceIndex : FieldValid sha256 rawRecords declarations (· = .ofNat position) event.sequenceIndex
  kind : FieldValid sha256 rawRecords declarations (fun _ => True) event.kind
  sourceItemId : ∀ field ∈ event.sourceItemId, FieldValid sha256 rawRecords declarations (isIdentifier · = true) field
  recordIndex : event.rawRecord.recordIndex = .ofNat position
  rawRecord : ∃ record, rawRecords[position]? = some record ∧ event.rawRecord.digest = rawRecordDigest sha256 record
  payload : ∀ field ∈ event.payload.toList, isAsciiName field.1 = true ∧
    FieldValid sha256 rawRecords declarations (fun value => ValueValid value.tree) field.2

variable {sha256} {rawRecords} {declarations} (short : ∀ record ∈ rawRecords, record.length < 2 ^ 64)

include short

theorem validateLocator_settles {locator : SourceLocator} :
    Settles (MemoSound sha256 rawRecords) (fun state => validateLocator sha256 rawRecords state locator) (LocatorValid sha256 rawRecords locator) := by
  intro state sound
  have answer := @validateLocator_answer sha256 rawRecords locator state sound
  have passes : (do
      validateDigest "source-locator digest" locator.digest
      if locator.byteLength = 0 then invalid "source locator byte_length must be nonzero"
      else
        let located ← locate rawRecords locator
        if locator.digest ≠ sourceLocatorDigest sha256 located then invalid "source locator digest does not match the sealed bytes"
        else .ok ()) = .ok () ↔ LocatorValid sha256 rawRecords locator := by
    rw [bind_eq_ok]
    constructor
    · rintro ⟨⟨⟩, -, run⟩
      obtain ⟨nonempty, run⟩ := guard_eq_ok.1 run
      obtain ⟨bytes, located, run⟩ := bind_eq_ok.1 run
      obtain ⟨same, -⟩ := guard_eq_ok.1 run
      obtain ⟨record, found, inside, rfl⟩ := (locate_eq_ok short).1 located
      exact ⟨nonempty, record, found, inside, not_not.1 same⟩
    · rintro ⟨nonempty, record, found, inside, same⟩
      have shape : isDigest locator.digest = true := same ▸ isDigest_framedSha256 _ _ _
      refine ⟨⟨⟩, validateDigest_eq_ok.2 shape, guard_eq_ok.2 ⟨nonempty, bind_eq_ok.2 ⟨_, (locate_eq_ok short).2 ⟨record, found, inside, rfl⟩, ?_⟩⟩⟩
      exact guard_eq_ok.2 ⟨not_not.2 same, rfl⟩
  rw [← answer] at passes
  dsimp only
  refine ⟨fun next run => ⟨validateLocator_sound sound run, passes.1 (by rw [run]; rfl)⟩, fun valid => ?_⟩
  have passed := passes.2 valid
  cases run : validateLocator sha256 rawRecords state locator with
  | error failure =>
    rw [run] at passed
    cases passed
  | ok next => exact ⟨next, rfl⟩

theorem validateEvidence_settles {name : String} {evidence : Evidence} :
    Settles (MemoSound sha256 rawRecords) (fun state => validateEvidence sha256 rawRecords declarations name state evidence)
      (EvidenceValid sha256 rawRecords declarations evidence) := by
  cases evidence with
  | citesRawRange locator => exact validateLocator_settles short
  | unavailable reason =>
    refine fun state sound => ⟨fun next run => ?_, False.elim⟩
    simp only [validateEvidence] at run
    split at run <;> cases run
  | declaredDerivationBinding rule sourceInputs =>
    have inputs := @foldlM_distinct LegitimacyError (ValidationState × List LocatorRange) LocatorRange SourceLocator
      (fun entry => MemoSound sha256 rawRecords entry.1) Prod.snd (validateInput sha256 rawRecords name) (LocatorValid sha256 rawRecords)
      SourceLocator.range sourceInputs (by
        intro locator _ entry sound
        obtain ⟨sure, possible⟩ := @validateLocator_settles sha256 rawRecords short locator entry.1 sound
        constructor
        · intro next run
          obtain ⟨state, checked, run⟩ := bind_eq_ok.1 run
          obtain ⟨fresh, made⟩ := guard_eq_ok.1 run
          cases made
          exact ⟨(sure state checked).1, rfl, (sure state checked).2, fresh⟩
        · intro valid fresh
          obtain ⟨state, checked⟩ := possible valid
          exact ⟨_, bind_eq_ok.2 ⟨state, checked, guard_eq_ok.2 ⟨fresh, rfl⟩⟩⟩)
    intro state sound
    obtain ⟨sure, possible⟩ := inputs (state, []) sound
    constructor
    · intro next run
      obtain ⟨⟨⟩, binding, run⟩ := bind_eq_ok.1 run
      obtain ⟨declared, run⟩ := guard_eq_ok.1 run
      obtain ⟨nonempty, run⟩ := guard_eq_ok.1 run
      obtain ⟨entry, folded, made⟩ := bind_eq_ok.1 run
      cases made
      obtain ⟨soundNext, valid, distinct, -⟩ := sure entry folded
      exact ⟨soundNext, validateBinding_eq_ok.1 binding, not_not.1 declared, fun empty => nonempty (List.isEmpty_iff.2 empty), valid, distinct⟩
    · rintro ⟨binding, declared, nonempty, valid, distinct⟩
      obtain ⟨entry, folded⟩ := possible valid distinct (by simp)
      refine ⟨entry.1, bind_eq_ok.2 ⟨⟨⟩, validateBinding_eq_ok.2 binding, guard_eq_ok.2 ⟨not_not.2 declared, guard_eq_ok.2 ⟨?_, ?_⟩⟩⟩⟩
      · exact fun empty => nonempty (List.isEmpty_iff.1 empty)
      · exact bind_eq_ok.2 ⟨entry, folded, rfl⟩

theorem validateRequiredField_settles {α : Type} {name : String} {field : Evidenced α} {state : ValidationState}
    (sound : MemoSound sha256 rawRecords state) :
    (∀ value next, validateRequiredField sha256 rawRecords declarations name field state = .ok (value, next) →
      MemoSound sha256 rawRecords next ∧ EvidenceValid sha256 rawRecords declarations field.evidence ∧ field.value = some value) ∧
    (∀ value, EvidenceValid sha256 rawRecords declarations field.evidence → field.value = some value →
      ∃ next, MemoSound sha256 rawRecords next ∧ validateRequiredField sha256 rawRecords declarations name field state = .ok (value, next)) := by
  obtain ⟨sure, possible⟩ := @validateEvidence_settles sha256 rawRecords declarations short name field.evidence state sound
  constructor
  · intro value next run
    obtain ⟨between, checked, run⟩ := bind_eq_ok.1 run
    obtain ⟨found, present, made⟩ := bind_eq_ok.1 run
    cases made
    exact ⟨(sure _ checked).1, (sure _ checked).2, elim_eq_ok.1 present⟩
  · intro value evidence present
    obtain ⟨next, checked⟩ := possible evidence
    exact ⟨next, (sure next checked).1, bind_eq_ok.2 ⟨next, checked, bind_eq_ok.2 ⟨value, elim_eq_ok.2 present, rfl⟩⟩⟩

theorem validatePayloadField_settles {field : String × Evidenced NormalizedValue} :
    Settles (MemoSound sha256 rawRecords) (fun state => validatePayloadField sha256 rawRecords declarations state field)
      (isAsciiName field.1 = true ∧ FieldValid sha256 rawRecords declarations (fun value => ValueValid value.tree) field.2) := by
  intro state sound
  obtain ⟨sure, possible⟩ := @validateRequiredField_settles sha256 rawRecords declarations short _ s!"payload.{field.1}" field.2 state sound
  constructor
  · intro next run
    obtain ⟨⟨⟩, name, run⟩ := bind_eq_ok.1 run
    obtain ⟨⟨value, between⟩, checked, run⟩ := bind_eq_ok.1 run
    obtain ⟨⟨⟩, normalized, made⟩ := bind_eq_ok.1 run
    obtain ⟨soundNext, evidence, present⟩ := sure value between checked
    cases made
    exact ⟨soundNext, validateAsciiName_eq_ok.1 name, evidence, value, present, (validateNormalizedValue_eq_ok _).1 normalized⟩
  · rintro ⟨name, evidence, value, present, normalized⟩
    obtain ⟨next, -, checked⟩ := possible value evidence present
    exact ⟨next, bind_eq_ok.2 ⟨⟨⟩, validateAsciiName_eq_ok.2 name, bind_eq_ok.2 ⟨_, checked, bind_eq_ok.2 ⟨⟨⟩,
      (validateNormalizedValue_eq_ok _).2 normalized, rfl⟩⟩⟩⟩

theorem validateSourceItem_settles {sourceItemId : Option (Evidenced String)} :
    Settles (MemoSound sha256 rawRecords) (fun state => validateSourceItem sha256 rawRecords declarations state sourceItemId)
      (∀ field ∈ sourceItemId, FieldValid sha256 rawRecords declarations (isIdentifier · = true) field) := by
  intro state sound
  cases sourceItemId with
  | none => exact ⟨fun next made => ⟨Except.ok.inj made ▸ sound, by simp⟩, fun _ => ⟨state, rfl⟩⟩
  | some field =>
    simp only [Option.mem_def, Option.some.injEq, forall_eq']
    obtain ⟨sure, possible⟩ := @validateRequiredField_settles sha256 rawRecords declarations short _ "source_item_id" field state sound
    constructor
    · intro next run
      obtain ⟨⟨value, between⟩, checked, run⟩ := bind_eq_ok.1 run
      obtain ⟨⟨⟩, identifier, made⟩ := bind_eq_ok.1 run
      obtain ⟨soundNext, evidence, present⟩ := sure value between checked
      cases made
      exact ⟨soundNext, evidence, value, present, validateIdentifier_eq_ok.1 identifier⟩
    · rintro ⟨evidence, value, present, identifier⟩
      obtain ⟨next, -, checked⟩ := possible value evidence present
      exact ⟨next, bind_eq_ok.2 ⟨_, checked, bind_eq_ok.2 ⟨⟨⟩, validateIdentifier_eq_ok.2 identifier, rfl⟩⟩⟩

theorem validateEvent_settles {event : AgentActionEvent} {position : Nat} {loop : EventLoop} (sound : MemoSound sha256 rawRecords loop.state)
    (inside : position < rawRecords.length) :
    (∀ next, validateEvent sha256 rawRecords declarations loop (event, position) = .ok next →
      MemoSound sha256 rawRecords next.state ∧ next.eventIds = event.eventId.value.getD "" :: loop.eventIds ∧
        EventValid sha256 rawRecords declarations position event ∧ event.eventId.value.getD "" ∉ loop.eventIds) ∧
    (EventValid sha256 rawRecords declarations position event → event.eventId.value.getD "" ∉ loop.eventIds →
      ∃ next, validateEvent sha256 rawRecords declarations loop (event, position) = .ok next) := by
  obtain ⟨record, found⟩ : ∃ record, rawRecords[position]? = some record := ⟨_, List.getElem?_eq_getElem inside⟩
  have sealed : rawRecords.getD position [] = record := by rw [List.getD_eq_getElem?_getD, found, Option.getD_some]
  have payload : Settles (MemoSound sha256 rawRecords)
      (fun state => event.payload.toList.foldlM (validatePayloadField sha256 rawRecords declarations) state) _ :=
    Settles.foldlM fun field _ => validatePayloadField_settles short
  constructor
  · intro next run
    unfold validateEvent at run
    obtain ⟨⟨eventId, atId⟩, idRun, run⟩ := bind_eq_ok.1 run
    obtain ⟨⟨⟩, identifier, run⟩ := bind_eq_ok.1 run
    obtain ⟨fresh, run⟩ := guard_eq_ok.1 run
    obtain ⟨⟨sequenceIndex, atSequence⟩, sequenceRun, run⟩ := bind_eq_ok.1 run
    obtain ⟨same, run⟩ := guard_eq_ok.1 run
    obtain ⟨⟨kind, atKind⟩, kindRun, run⟩ := bind_eq_ok.1 run
    obtain ⟨atItem, itemRun, run⟩ := bind_eq_ok.1 run
    obtain ⟨recordIndex, run⟩ := guard_eq_ok.1 run
    obtain ⟨⟨⟩, -, run⟩ := bind_eq_ok.1 run
    obtain ⟨digest, run⟩ := guard_eq_ok.1 run
    obtain ⟨final, payloadRun, made⟩ := bind_eq_ok.1 run
    obtain ⟨soundId, idEvidence, idPresent⟩ := (validateRequiredField_settles short sound).1 _ _ idRun
    obtain ⟨soundSequence, sequenceEvidence, sequencePresent⟩ := (validateRequiredField_settles short soundId).1 _ _ sequenceRun
    obtain ⟨soundKind, kindEvidence, kindPresent⟩ := (validateRequiredField_settles short soundSequence).1 _ _ kindRun
    obtain ⟨soundItem, sourceItemId⟩ := (validateSourceItem_settles short atKind soundKind).1 _ itemRun
    obtain ⟨soundFinal, payloadValid⟩ := (payload atItem soundItem).1 _ payloadRun
    cases made
    rw [idPresent, Option.getD_some]
    refine ⟨soundFinal, rfl, ⟨⟨idEvidence, eventId, idPresent, validateIdentifier_eq_ok.1 identifier⟩,
      ⟨sequenceEvidence, sequenceIndex, sequencePresent, not_not.1 same⟩, ⟨kindEvidence, kind, kindPresent, trivial⟩, sourceItemId,
      not_not.1 recordIndex, ⟨record, found, ?_⟩, payloadValid⟩, fresh⟩
    rw [← sealed]
    exact not_not.1 digest
  · intro valid fresh
    obtain ⟨eventId, idPresent, identifier⟩ := valid.eventId.value
    obtain ⟨sequenceIndex, sequencePresent, same⟩ := valid.sequenceIndex.value
    obtain ⟨kind, kindPresent, -⟩ := valid.kind.value
    obtain ⟨other, atPosition, digest⟩ := valid.rawRecord
    obtain rfl : record = other := Option.some.inj (found.symm.trans atPosition)
    obtain ⟨atId, soundId, idRun⟩ := (@validateRequiredField_settles sha256 rawRecords declarations short _ "event_id" event.eventId loop.state
      sound).2 _ valid.eventId.evidence idPresent
    obtain ⟨atSequence, soundSequence, sequenceRun⟩ := (@validateRequiredField_settles sha256 rawRecords declarations short _ "sequence_index"
      event.sequenceIndex atId soundId).2 _ valid.sequenceIndex.evidence sequencePresent
    obtain ⟨atKind, soundKind, kindRun⟩ := (@validateRequiredField_settles sha256 rawRecords declarations short _ "kind" event.kind atSequence
      soundSequence).2 _ valid.kind.evidence kindPresent
    obtain ⟨sureItem, possibleItem⟩ := @validateSourceItem_settles sha256 rawRecords declarations short event.sourceItemId atKind soundKind
    obtain ⟨atItem, itemRun⟩ := possibleItem valid.sourceItemId
    obtain ⟨final, payloadRun⟩ := (payload atItem (sureItem atItem itemRun).1).2 valid.payload
    rw [idPresent, Option.getD_some] at fresh
    have shape : isDigest event.rawRecord.digest = true := digest ▸ isDigest_framedSha256 _ _ _
    unfold validateEvent
    refine ⟨⟨final, eventId :: loop.eventIds⟩, bind_eq_ok.2 ⟨_, idRun, bind_eq_ok.2 ⟨⟨⟩, validateIdentifier_eq_ok.2 identifier, ?_⟩⟩⟩
    refine guard_eq_ok.2 ⟨fresh, bind_eq_ok.2 ⟨_, sequenceRun, guard_eq_ok.2 ⟨not_not.2 same, bind_eq_ok.2 ⟨_, kindRun, ?_⟩⟩⟩⟩
    refine bind_eq_ok.2 ⟨_, itemRun, guard_eq_ok.2 ⟨not_not.2 valid.recordIndex, bind_eq_ok.2 ⟨⟨⟩, validateDigest_eq_ok.2 shape, ?_⟩⟩⟩
    refine guard_eq_ok.2 ⟨?_, bind_eq_ok.2 ⟨final, payloadRun, rfl⟩⟩
    rw [not_not, sealed, digest]

end

section

/-- A well-formed trace over its sealed records and the declarations. -/
structure TraceValid (host : Host) (trace : TrajectoryTrace) (rawRecords : List (List UInt8)) (declarations : TrajectoryValidationContext) :
    Prop where
  recordBytes : ∀ record ∈ rawRecords, record.length ≤ maxRawRecordBytes
  captureBytes : (rawRecords.map List.length).sum ≤ maxRawCaptureBytes
  parts : TraceFits trace
  charges : ChargesFit (traceCharges trace)
  compact : ((traceJson trace).compactBytes host.floatText).length ≤ maxTraceCompactJsonBytes
  schema : trace.schema = host.schemaBinding
  adapter : BindingValid trace.adapter ∧ trace.adapter = declarations.adapter
  policy : BindingValid trace.policy ∧ trace.policy = declarations.policy
  declared : trace.rawCapture = declarations.rawCapture
  sealed : trace.rawCapture = rawCaptureSeal host.sha256 rawRecords
  objects : ∀ record ∈ rawRecords, rejectDuplicateJsonKeys host.reader record = .ok .object
  nonempty : trace.events ≠ []
  oneEach : trace.events.length = rawRecords.length
  runId : FieldValid host.sha256 rawRecords declarations (isIdentifier · = true) trace.runId
  events : ∀ entry ∈ trace.events.zipIdx, EventValid host.sha256 rawRecords declarations entry.2 entry.1
  distinct : (trace.events.map (·.eventId.value)).Nodup

variable {host : Host} {trace : TrajectoryTrace} {rawRecords : List (List UInt8)} {declarations : TrajectoryValidationContext}

theorem validateRawRecords_eq_ok : rawRecords.zipIdx.forM (validateRawRecord host) = .ok ⟨⟩ ↔
    ∀ record ∈ rawRecords, rejectDuplicateJsonKeys host.reader record = .ok .object := by
  have one : ∀ entry : List UInt8 × Nat, validateRawRecord host entry = .ok ⟨⟩ ↔ rejectDuplicateJsonKeys host.reader entry.1 = .ok .object := by
    intro entry
    unfold validateRawRecord invalid
    cases rejectDuplicateJsonKeys host.reader entry.1 with
    | error failure => simp
    | ok kind => cases kind <;> simp
  simp only [forM_eq_ok, one]
  constructor
  · intro all record member
    obtain ⟨index, found⟩ := List.getElem?_of_mem member
    exact all (record, index) (List.mem_zipIdx_iff_getElem?.2 found)
  · intro all entry member
    exact all entry.1 (List.mem_of_getElem? (List.mem_zipIdx_iff_getElem?.1 member))

theorem nodup_identifiers {events : List AgentActionEvent} (present : ∀ event ∈ events, ∃ value, event.eventId.value = some value) :
    (events.zipIdx.map fun entry => entry.1.eventId.value.getD "").Nodup ↔ (events.map (·.eventId.value)).Nodup := by
  have keys : (events.zipIdx.map fun entry => entry.1.eventId.value.getD "") = (events.map (·.eventId.value)).map (·.getD "") := by
    conv_rhs => rw [← @List.zipIdx_map_fst _ 0 events]
    rw [List.map_map, List.map_map]
    rfl
  rw [keys]
  refine ⟨List.Nodup.of_map _, fun distinct => distinct.map_on fun first inFirst second inSecond same => ?_⟩
  obtain ⟨event, member, rfl⟩ := List.mem_map.1 inFirst
  obtain ⟨other, inside, rfl⟩ := List.mem_map.1 inSecond
  obtain ⟨value, atEvent⟩ := present event member
  obtain ⟨text, atOther⟩ := present other inside
  rw [atEvent, atOther, Option.getD_some, Option.getD_some] at same
  rw [atEvent, atOther, same]

theorem position_inside {entry : AgentActionEvent × Nat} (oneEach : trace.events.length = rawRecords.length) (member : entry ∈ trace.events.zipIdx) :
    entry.2 < rawRecords.length := oneEach ▸ (List.getElem?_eq_some_iff.1 (List.mem_zipIdx_iff_getElem?.1 member)).1

theorem validateEvents_settles (short : ∀ record ∈ rawRecords, record.length < 2 ^ 64) (oneEach : trace.events.length = rawRecords.length)
    {state : ValidationState} (sound : MemoSound host.sha256 rawRecords state) :
    (∃ final, trace.events.zipIdx.foldlM (validateEvent host.sha256 rawRecords declarations) ⟨state, []⟩ = .ok final) ↔
      (∀ entry ∈ trace.events.zipIdx, EventValid host.sha256 rawRecords declarations entry.2 entry.1) ∧
        (trace.events.map (·.eventId.value)).Nodup := by
  obtain ⟨sure, possible⟩ := @foldlM_distinct LegitimacyError EventLoop String (AgentActionEvent × Nat)
    (fun loop => MemoSound host.sha256 rawRecords loop.state) EventLoop.eventIds (validateEvent host.sha256 rawRecords declarations)
    (fun entry => EventValid host.sha256 rawRecords declarations entry.2 entry.1) (fun entry => entry.1.eventId.value.getD "")
    trace.events.zipIdx (fun entry member loop inside => validateEvent_settles short inside (position_inside oneEach member)) ⟨state, []⟩ sound
  have present : (∀ entry ∈ trace.events.zipIdx, EventValid host.sha256 rawRecords declarations entry.2 entry.1) →
      ∀ event ∈ trace.events, ∃ value, event.eventId.value = some value := by
    intro valid event member
    obtain ⟨index, found⟩ := List.getElem?_of_mem member
    obtain ⟨value, isValue, -⟩ := (valid (event, index) (List.mem_zipIdx_iff_getElem?.2 found)).eventId.value
    exact ⟨value, isValue⟩
  constructor
  · rintro ⟨final, run⟩
    obtain ⟨-, valid, distinct, -⟩ := sure final run
    exact ⟨valid, (nodup_identifiers (present valid)).1 distinct⟩
  · rintro ⟨valid, distinct⟩
    exact possible valid ((nodup_identifiers (present valid)).2 distinct) (fun _ _ => List.not_mem_nil)

theorem validateTrace_eq_ok : validateTrace host trace rawRecords declarations = .ok ⟨⟩ ↔ TraceValid host trace rawRecords declarations := by
  have shortOf : (∀ record ∈ rawRecords, record.length ≤ maxRawRecordBytes) → ∀ record ∈ rawRecords, record.length < 2 ^ 64 :=
    fun bounded record member => Nat.lt_of_le_of_lt (bounded record member) (by decide)
  constructor
  · intro run
    obtain ⟨⟨⟩, budget, run⟩ := bind_eq_ok.1 run
    obtain ⟨bytes, exported, run⟩ := bind_eq_ok.1 run
    obtain ⟨⟨⟩, -, run⟩ := bind_eq_ok.1 run
    obtain ⟨⟨⟩, adapter, run⟩ := bind_eq_ok.1 run
    obtain ⟨⟨⟩, policy, run⟩ := bind_eq_ok.1 run
    obtain ⟨⟨⟩, -, run⟩ := bind_eq_ok.1 run
    obtain ⟨⟨⟩, -, run⟩ := bind_eq_ok.1 run
    obtain ⟨schema, run⟩ := guard_eq_ok.1 run
    obtain ⟨sameAdapter, run⟩ := guard_eq_ok.1 run
    obtain ⟨samePolicy, run⟩ := guard_eq_ok.1 run
    obtain ⟨⟨⟩, -, run⟩ := bind_eq_ok.1 run
    obtain ⟨⟨⟩, -, run⟩ := bind_eq_ok.1 run
    obtain ⟨declared, run⟩ := guard_eq_ok.1 run
    obtain ⟨⟨⟩, records, run⟩ := bind_eq_ok.1 run
    obtain ⟨sealed, run⟩ := guard_eq_ok.1 run
    obtain ⟨⟨runId, state⟩, runField, run⟩ := bind_eq_ok.1 run
    obtain ⟨⟨⟩, identifier, run⟩ := bind_eq_ok.1 run
    obtain ⟨final, events, -⟩ := bind_eq_ok.1 run
    have resources := validateResourceBudget_eq_ok.1 budget
    obtain ⟨rfl, compact⟩ := serializeBoundedCompactJson_eq_ok.1 exported
    have short := shortOf resources.recordBytes
    obtain ⟨sound, evidence, present⟩ := (validateRequiredField_settles short memoSound_fresh).1 _ _ runField
    obtain ⟨valid, distinct⟩ := (validateEvents_settles short resources.oneEach sound).1 ⟨final, events⟩
    exact ⟨resources.recordBytes, resources.captureBytes, resources.parts, resources.charges, compact, not_not.1 schema,
      ⟨validateBinding_eq_ok.1 adapter, not_not.1 sameAdapter⟩, ⟨validateBinding_eq_ok.1 policy, not_not.1 samePolicy⟩, not_not.1 declared,
      not_not.1 sealed, validateRawRecords_eq_ok.1 records, resources.nonempty, resources.oneEach,
      ⟨evidence, runId, present, validateIdentifier_eq_ok.1 identifier⟩, valid, distinct⟩
  · intro valid
    obtain ⟨adapter, sameAdapter⟩ := valid.adapter
    obtain ⟨policy, samePolicy⟩ := valid.policy
    obtain ⟨runId, present, identifier⟩ := valid.runId.value
    have short := shortOf valid.recordBytes
    have digest : isDigest trace.rawCapture.digest = true := valid.sealed ▸ isDigest_framedSha256 _ _ _
    have declaredDigest : isDigest declarations.rawCapture.digest = true := valid.declared ▸ digest
    have declaredAdapter : BindingValid declarations.adapter := sameAdapter ▸ adapter
    have declaredPolicy : BindingValid declarations.policy := samePolicy ▸ policy
    have schema : BindingValid trace.schema := valid.schema ▸ schemaBinding_valid
    have budget := validateResourceBudget_eq_ok.2 ⟨valid.recordBytes, valid.captureBytes, by rw [valid.sealed]; rfl, valid.nonempty, valid.oneEach,
      valid.parts, declaredAdapter.fits, declaredPolicy.fits, (isDigest_plain declaredDigest).1.le, valid.charges⟩
    have exported := serializeBoundedCompactJson_eq_ok.2 ⟨rfl, valid.compact⟩
    obtain ⟨state, sound, runField⟩ := (@validateRequiredField_settles host.sha256 rawRecords declarations short _ "run_id" trace.runId .fresh
      memoSound_fresh).2 runId valid.runId.evidence present
    obtain ⟨final, events⟩ := (@validateEvents_settles host trace rawRecords declarations short valid.oneEach state sound).2
      ⟨valid.events, valid.distinct⟩
    refine bind_eq_ok.2 ⟨⟨⟩, budget, bind_eq_ok.2 ⟨_, exported, bind_eq_ok.2 ⟨⟨⟩, validateBinding_eq_ok.2 schema, ?_⟩⟩⟩
    refine bind_eq_ok.2 ⟨⟨⟩, validateBinding_eq_ok.2 adapter, bind_eq_ok.2 ⟨⟨⟩, validateBinding_eq_ok.2 policy, ?_⟩⟩
    refine bind_eq_ok.2 ⟨⟨⟩, validateBinding_eq_ok.2 declaredAdapter, bind_eq_ok.2 ⟨⟨⟩, validateBinding_eq_ok.2 declaredPolicy, ?_⟩⟩
    refine guard_eq_ok.2 ⟨not_not.2 valid.schema, guard_eq_ok.2 ⟨not_not.2 sameAdapter, guard_eq_ok.2 ⟨not_not.2 samePolicy, ?_⟩⟩⟩
    refine bind_eq_ok.2 ⟨⟨⟩, validateDigest_eq_ok.2 digest, bind_eq_ok.2 ⟨⟨⟩, validateDigest_eq_ok.2 declaredDigest, ?_⟩⟩
    refine guard_eq_ok.2 ⟨not_not.2 valid.declared, bind_eq_ok.2 ⟨⟨⟩, validateRawRecords_eq_ok.2 valid.objects, ?_⟩⟩
    refine guard_eq_ok.2 ⟨not_not.2 valid.sealed, bind_eq_ok.2 ⟨_, runField, bind_eq_ok.2 ⟨⟨⟩, validateIdentifier_eq_ok.2 identifier, ?_⟩⟩⟩
    exact bind_eq_ok.2 ⟨final, events, rfl⟩

/-- Validation accepts the well-formed traces and no others, remembered digests answer as computed ones, and every event has a record. -/
theorem validateTrace_exact (host : Host) (trace : TrajectoryTrace) (rawRecords : List (List UInt8)) (declarations : TrajectoryValidationContext) :
    (validateTrace host trace rawRecords declarations = .ok ⟨⟩ ↔ TraceValid host trace rawRecords declarations) ∧
    (∀ locators : List SourceLocator, (locators.foldlM (validateLocator host.sha256 rawRecords) .fresh).map (fun _ => ()) =
      locators.forM fun locator => (validateLocator host.sha256 rawRecords .fresh locator).map fun _ => ()) ∧
    (validateResourceBudget trace rawRecords declarations = .ok ⟨⟩ → ∀ entry ∈ trace.events.zipIdx, entry.2 < rawRecords.length) :=
  ⟨validateTrace_eq_ok, validateLocators_memo memoSound_fresh,
    fun budget _ member => position_inside (validateResourceBudget_eq_ok.1 budget).oneEach member⟩

end

section

def Evidence.locators : Evidence → List SourceLocator
  | .citesRawRange locator => [locator]
  | .declaredDerivationBinding _ sourceInputs => sourceInputs
  | .unavailable _ => []

def AgentActionEvent.evidence (event : AgentActionEvent) : List Evidence :=
  [event.eventId.evidence, event.sequenceIndex.evidence, event.kind.evidence] ++ event.sourceItemId.toList.map (·.evidence) ++
    event.payload.toList.map (·.2.evidence)

def TrajectoryTrace.locators (trace : TrajectoryTrace) : List SourceLocator :=
  (trace.runId.evidence :: trace.events.flatMap AgentActionEvent.evidence).flatMap Evidence.locators

/-- One numbered event for each record, different event ids, exact locators, and sizes within all limits; but nothing about the declarations. -/
structure ShapeValid (host : Host) (trace : TrajectoryTrace) (rawRecords : List (List UInt8)) (declarations : TrajectoryValidationContext) :
    Prop where
  resources : ResourcesFit trace rawRecords declarations
  compact : ((traceJson trace).compactBytes host.floatText).length ≤ maxTraceCompactJsonBytes
  contiguous : ∀ entry ∈ trace.events.zipIdx, entry.1.sequenceIndex.value = some (.ofNat entry.2)
  distinct : (trace.events.map (·.eventId.value)).Nodup
  locators : ∀ locator ∈ trace.locators, LocatorValid host.sha256 rawRecords locator

end

end Legitimacy.Trajectory
