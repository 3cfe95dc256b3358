import Legitimacy.CodexExec.Bundle
import Legitimacy.CodexExec.FreshTurnAcceptance

namespace Legitimacy.CodexExec

open Trajectory ExceptRun Json LineFile Serde

section

variable {sha256 : List UInt8 → Digest} {rawRecords : List (List UInt8)} {declarations : TrajectoryValidationContext}

theorem digestTail_digest (hex : String) : digestTail ("sha256:" ++ hex) = hex := by
  rw [digestTail, String.toList_append]
  exact String.ofList_toList

theorem isLowerName_of_isHexByte {byte : UInt8} (hex : isHexByte byte = true) : isLowerName byte = true := by
  simp only [isHexByte, isLowerName, Bool.or_eq_true, Bool.and_eq_true, decide_eq_true_eq] at *
  have letter : byte ≤ 102 → byte ≤ 122 := fun below => UInt8.le_trans below (by decide)
  tauto

/-- Digits behind an identifier give an identifier. -/
theorem isIdentifier_append {label tail : String} (labelled : isIdentifier label = true) (short : label.utf8ByteSize + tail.utf8ByteSize ≤ 128)
    (digits : (Utf8.bytes tail).all isHexByte = true) (known : label ++ tail ≠ "unknown") : isIdentifier (label ++ tail) = true := by
  simp only [isIdentifier, Bool.and_eq_true, decide_eq_true_eq] at labelled
  obtain ⟨⟨⟨nonempty, -⟩, -⟩, all⟩ := labelled
  have bytes : allBytes (fun byte => isLowerName byte || isUpper byte)
      (fun byte => isLowerName byte || isUpper byte || byte == 46 || byte == 95 || byte == 58 || byte == 64 || byte == 47 || byte == 43 ||
        byte == 45) (Utf8.bytes (label ++ tail)) = true := by
    rw [Utf8.bytes_append]
    cases atLabel : Utf8.bytes label with
    | nil => exact absurd (Utf8.bytes_injective (atLabel.trans rfl : _ = Utf8.bytes "")) (by simpa using nonempty)
    | cons first rest =>
      rw [atLabel, allBytes, Bool.and_eq_true] at all
      rw [List.cons_append, allBytes, all.1, Bool.true_and, List.all_append, all.2, Bool.true_and, List.all_eq_true]
      intro byte member
      rw [isLowerName_of_isHexByte (List.all_eq_true.1 digits byte member)]
      rfl
  rw [isIdentifier, bytes]
  simp only [Bool.and_true, Bool.and_eq_true, decide_eq_true_eq]
  refine ⟨⟨fun same => nonempty ?_, ?_⟩, known⟩
  · exact (String.append_eq_empty_iff.1 same).1
  · rw [String.utf8ByteSize_append]
    exact short

theorem isIdentifier_digestTail {label digest : String} (labelled : isIdentifier label = true) (short : label.utf8ByteSize ≤ 64)
    (valid : isDigest digest = true) : isIdentifier (label ++ digestTail digest) = true := by
  obtain ⟨hex, rfl, size, digits⟩ := isDigest_iff.1 valid
  rw [digestTail_digest]
  refine isIdentifier_append labelled (by omega) digits fun same => ?_
  have whole := congrArg String.utf8ByteSize same
  have unknown : "unknown".utf8ByteSize = 7 := rfl
  rw [String.utf8ByteSize_append] at whole
  omega

theorem rule_valid {identity ruleText : String} (named : isAsciiName identity = true) : BindingValid (rule sha256 identity ruleText) :=
  ⟨named, by show isAsciiVersion "0" = true; decide, isDigest_framedSha256 _ _ _⟩

theorem locator_valid {index : Nat} {raw : List UInt8} (found : rawRecords[index]? = some raw) (nonempty : raw ≠ [])
    (short : raw.length < 2 ^ 64) (few : rawRecords.length ≤ 2 ^ 64) : LocatorValid sha256 rawRecords (locator sha256 index raw) := by
  have inside : index < rawRecords.length := (List.getElem?_eq_some_iff.1 found).1
  have atIndex : (UInt64.ofNat index).toNat = index := UInt64.toNat_ofNat_of_lt' (by show index < 2 ^ 64; omega)
  have length : (UInt64.ofNat raw.length).toNat = raw.length := UInt64.toNat_ofNat_of_lt' short
  have positive : 0 < raw.length := List.length_pos_iff.2 nonempty
  refine ⟨fun zero => ?_, raw, ?_, ?_, ?_⟩
  · have none : (UInt64.ofNat raw.length).toNat = 0 := by
      rw [show UInt64.ofNat raw.length = 0 from zero]
      rfl
    omega
  · show rawRecords[(UInt64.ofNat index).toNat]? = some raw
    rw [atIndex, found]
  · show 0 + (UInt64.ofNat raw.length).toNat ≤ raw.length
    omega
  · show sourceLocatorDigest sha256 raw = sourceLocatorDigest sha256 ((raw.drop 0).take (UInt64.ofNat raw.length).toNat)
    rw [length, List.drop_zero, List.take_length]

theorem derivedFrom_valid {α : Type} {accepts : α → Prop} {value : α} {rule : ArtifactBinding} {sourceInputs : List SourceLocator}
    (valid : BindingValid rule) (declared : rule ∈ declarations.allowedDerivations) (cited : sourceInputs ≠ [])
    (locators : ∀ locator ∈ sourceInputs, LocatorValid sha256 rawRecords locator) (distinct : (sourceInputs.map SourceLocator.range).Nodup)
    (accepted : accepts value) : FieldValid sha256 rawRecords declarations accepts (derivedFrom value rule sourceInputs) :=
  ⟨⟨valid, declared, cited, locators, distinct⟩, value, rfl, accepted⟩

theorem derived_valid {α : Type} {accepts : α → Prop} {value : α} {rule : ArtifactBinding} {source : SourceLocator} (valid : BindingValid rule)
    (declared : rule ∈ declarations.allowedDerivations) (cites : LocatorValid sha256 rawRecords source) (accepted : accepts value) :
    FieldValid sha256 rawRecords declarations accepts (derived value rule source) :=
  derivedFrom_valid valid declared (List.cons_ne_nil _ _) (List.forall_mem_singleton.2 cites) (List.nodup_singleton _) accepted

theorem locator_fits {locator : SourceLocator} (valid : LocatorValid sha256 rawRecords locator) : isDigest locator.digest = true := by
  obtain ⟨record, -, -, same⟩ := valid.cites
  rw [same]
  exact isDigest_framedSha256 _ _ _

theorem evidence_fits {evidence : Evidence} (valid : EvidenceValid sha256 rawRecords declarations evidence)
    (few : evidence.locators.length ≤ maxDerivationInputs) : EvidenceFits evidence := by
  cases evidence with
  | citesRawRange locator => exact (isDigest_plain (locator_fits valid)).1.le
  | declaredDerivationBinding rule sourceInputs =>
    obtain ⟨binding, -, -, locators, -⟩ := valid
    exact ⟨binding.fits, few, fun locator member => (isDigest_plain (locator_fits (locators locator member))).1.le⟩
  | unavailable reason => exact valid.elim

variable {host : AdapterHost}

def codexRules (sha256 : List UInt8 → Digest) : List ArtifactBinding := [runRule sha256, eventRule sha256, positionRule sha256, fieldRule sha256]

theorem codexRules_valid : ∀ rule ∈ codexRules sha256, BindingValid rule := by
  intro rule listed
  simp only [codexRules, List.mem_cons, List.not_mem_nil, or_false] at listed
  rcases listed with rfl | rfl | rfl | rfl <;> exact rule_valid (by decide)

end

section

theorem stripPrefix_repr (value : Int) : (stripPrefix "-" value.repr).getD value.repr = value.natAbs.repr := by
  cases value with
  | ofNat number =>
    obtain ⟨first, more, shape, digit⟩ := exists_toDigits number
    have other : ('-' == first) = false := beq_false_of_ne fun same => absurd (same ▸ digit) (by decide)
    show (stripPrefix "-" number.repr).getD number.repr = number.repr
    have unsigned : "-".toList.isPrefixOf number.repr.toList = false := by
      rw [Nat.toList_repr, shape]
      show ('-' == first && _) = false
      rw [other, Bool.false_and]
    rw [stripPrefix, unsigned]
    rfl
  | negSucc number =>
    show (stripPrefix "-" ("-" ++ (number + 1).repr)).getD _ = (number + 1).repr
    have signed : "-".toList.isPrefixOf ("-" ++ (number + 1).repr).toList = true := by
      rw [String.toList_append]
      exact List.isPrefixOf_iff_prefix.2 (List.prefix_append _ _)
    rw [stripPrefix, signed, String.toList_append]
    exact String.ofList_toList

theorem isHexByte_of_isDigit {character : Char} (digit : character.isDigit = true) {byte : UInt8}
    (member : byte ∈ String.utf8EncodeChar character) : (48 ≤ byte && byte ≤ 57) = true := by
  rw [String.utf8EncodeChar_eq_singleton (Utf8.utf8Size_of_isDigit digit), List.mem_singleton] at member
  simp only [Char.isDigit, Bool.and_eq_true, decide_eq_true_eq, UInt32.le_iff_toNat_le] at digit
  have code : byte.toNat = character.val.toNat % 256 := member ▸ UInt32.toNat_toUInt8 _
  have low : '0'.val.toNat = 48 := rfl
  have high : '9'.val.toNat = 57 := rfl
  simp only [Bool.and_eq_true, decide_eq_true_eq, UInt8.le_iff_toNat_le, UInt8.reduceToNat]
  omega

theorem repr_decimal (number : Nat) : (Utf8.bytes number.repr).all (fun byte => 48 ≤ byte && byte ≤ 57) = true := by
  rw [List.all_eq_true]
  intro byte member
  obtain ⟨character, inside, encoded⟩ := List.mem_flatMap.1 member
  rw [Nat.toList_repr] at inside
  exact isHexByte_of_isDigit (Nat.isDigit_of_mem_toDigits (by decide) (by decide) inside) encoded

/-- A number is written as the validation of decimals wants it. -/
theorem integerValid_repr {value : Int} (small : value.natAbs < 10 ^ 20) : IntegerValid value.repr := by
  have size := Utf8.utf8ByteSize_repr value.natAbs
  have short := @Utf8.utf8ByteSize_repr_le value.natAbs 20 (by decide) small
  obtain ⟨first, more, shape, -⟩ := exists_toDigits value.natAbs
  refine ⟨?_, ?_, ?_, ?_, ?_⟩ <;> try rw [stripPrefix_repr]
  · exact short.trans (by decide)
  · intro empty
    rw [empty, shape] at size
    exact absurd size (by simp)
  · exact repr_decimal _
  · intro long
    rw [Bool.eq_false_iff]
    intro zero
    rw [startsWith, Nat.toList_repr, shape] at zero
    have head : first = '0' := (beq_iff_eq.1 (Bool.and_eq_true_iff.1 zero).1).symm
    have none : value.natAbs = 0 := head_toDigits (by rw [shape, head]; rfl)
    rw [none] at long
    exact absurd long (by decide)
  · intro zero
    have digits := stripPrefix_repr value
    rw [zero] at digits
    have number : value.natAbs = 0 := Nat.repr_inj.1 (digits.symm.trans rfl)
    rw [Int.natAbs_eq_zero.1 number] at zero
    exact absurd zero (by decide)

theorem isIdentifier_itemName {index : Nat} (small : index < 10 ^ 20) : isIdentifier (itemName index) = true := by
  have short := @Utf8.utf8ByteSize_repr_le index 20 (by decide) small
  have label : "item_".utf8ByteSize = 5 := rfl
  refine isIdentifier_append (by decide) (by omega) ?_ fun same => ?_
  · rw [List.all_eq_true]
    intro byte member
    rw [isHexByte, List.all_eq_true.1 (repr_decimal index) byte member, Bool.true_or]
  · have first := congrArg (fun text => text.toList.head?) same
    rw [String.toList_append] at first
    have letters : some 'i' = some 'u' := first
    exact absurd letters (by decide)

/-- A value that neither the sizes nor the checks of a payload refuse. -/
def Accepted (value : NormalizedValue) : Prop := ValueValid value.tree ∧ TreeFits 1 value.tree

theorem stringValue_accepted {text : String} (short : text.utf8ByteSize ≤ 64) : Accepted (stringValue text) := by
  have scalars := length_le_textSize text.toList
  rw [← utf8ByteSize_eq_textSize, String.length_toList] at scalars
  exact ⟨(scalars.trans short).trans (by decide), by decide, short.trans (by decide)⟩

theorem integerValue_accepted {value : Int} (small : value.natAbs < 10 ^ 20) : Accepted (integerValue value.repr) := by
  have valid := integerValid_repr small
  have short : value.repr.utf8ByteSize ≤ 21 := by
    cases value with
    | ofNat number => exact (Utf8.utf8ByteSize_repr_le (by decide) small).trans (by decide)
    | negSucc number =>
      show ("-" ++ (number + 1).repr).utf8ByteSize ≤ 21
      have digits := @Utf8.utf8ByteSize_repr_le (number + 1) 20 (by decide) small
      have sign : "-".utf8ByteSize = 1 := rfl
      rw [String.utf8ByteSize_append]
      omega
  exact ⟨valid, by decide, short.trans (by decide)⟩

theorem nullValue_accepted : Accepted nullValue := ⟨trivial, by show 1 ≤ maxNormalizedDepth; decide⟩

theorem array_accepted {α : Type} {leaf : α → NormalizedTree} {items : List α} (few : items.length ≤ maxNormalizedArrayItems)
    (each : ∀ item ∈ items, ValueValid (leaf item) ∧ TreeFits 2 (leaf item)) :
    ValueValid (.array (items.map leaf)) ∧ TreeFits 1 (.array (items.map leaf)) := by
  have parts : ValuesValid (items.map leaf) ∧ TreesFit 2 (items.map leaf) := by
    clear few
    induction items with
    | nil => exact ⟨trivial, trivial⟩
    | cons item rest ih =>
      obtain ⟨valid, fits⟩ := each item List.mem_cons_self
      obtain ⟨others, otherFits⟩ := ih fun other member => each other (List.mem_cons_of_mem item member)
      exact ⟨⟨valid, others⟩, fits, otherFits⟩
  exact ⟨parts.1, by decide, by rwa [List.length_map], parts.2⟩

end

section

/-- What a record must keep for its payload to be accepted. -/
def RecordSound : ParsedRecord → Prop
  | .threadStarted threadId => threadId.utf8ByteSize ≤ 64
  | .turnCompleted usage => ∀ count ∈ [usage.inputTokens, usage.cachedInputTokens, usage.outputTokens, usage.reasoningOutputTokens],
    count.natAbs < 10 ^ 20
  | .item _ (.command _ _ _ exitCode _) => ∀ code ∈ exitCode, code.natAbs < 10 ^ 20
  | .item _ (.fileChange _ changes _) => changes.length ≤ maxChangesOrTodos
  | .item _ (.todoList _ items) => items.length ≤ maxChangesOrTodos
  | _ => True

variable {rule : ArtifactBinding} {source : SourceLocator}

/-- A payload whose fields are all derived from one record, with names and values that are accepted. -/
structure Projects (rule : ArtifactBinding) (source : SourceLocator) (bound : Nat) (payload : Payload) : Prop where
  size : payload.size ≤ bound
  fields : ∀ field ∈ payload.toList, isAsciiName field.1 = true ∧ ∃ value, field.2 = derived value rule source ∧ Accepted value

theorem Projects.add {bound : Nat} {payload : Payload} (projects : Projects rule source bound payload) {key : String} {value : NormalizedValue}
    (named : isAsciiName key = true) (accepted : Accepted value) : Projects rule source (bound + 1) (addValue rule source key value payload) where
  size := Std.ExtTreeMap.size_insert_le.trans (Nat.succ_le_succ projects.size)
  fields := by
    rintro ⟨name, field⟩ member
    rw [addValue, Std.ExtTreeMap.mem_toList_iff_getElem?_eq_some, Std.ExtTreeMap.getElem?_insert] at member
    split at member
    · rename_i same
      rw [← Std.LawfulEqCmp.compare_eq_iff_eq.1 same]
      exact ⟨named, value, (Option.some.inj member).symm, accepted⟩
    · exact projects.fields _ (Std.ExtTreeMap.mem_toList_iff_getElem?_eq_some.2 member)

theorem Projects.addString {bound : Nat} {payload : Payload} (projects : Projects rule source bound payload) {key text : String}
    (named : isAsciiName key = true) (short : text.utf8ByteSize ≤ 64) :
    Projects rule source (bound + 1) (addString rule source key text payload) := projects.add named (stringValue_accepted short)

theorem Projects.addInteger {bound : Nat} {payload : Payload} (projects : Projects rule source bound payload) {key : String} {value : Int}
    (named : isAsciiName key = true) (small : value.natAbs < 10 ^ 20) :
    Projects rule source (bound + 1) (addInteger rule source key value payload) := projects.add named (integerValue_accepted small)

theorem sourceEvent_short (record : ParsedRecord) : (sourceEvent record).utf8ByteSize ≤ 64 := by
  cases record with
  | item lifecycle item => cases lifecycle <;> exact Nat.le_of_ble_eq_true rfl
  | _ => exact Nat.le_of_ble_eq_true rfl

theorem payload_projects {record : ParsedRecord} (sound : RecordSound record) :
    Projects rule source 6 (addRecordPayload rule source record (addString rule source "source-event" (sourceEvent record) ∅)) := by
  have start : Projects rule source 1 (CodexExec.addString rule source "source-event" (sourceEvent record) ∅) :=
    Projects.addString ⟨Nat.le_refl 0, fun field member => (List.not_mem_nil member).elim⟩ (by decide) (sourceEvent_short record)
  have more {bound : Nat} (few : bound ≤ 6) {payload : Payload} (projects : Projects rule source bound payload) : Projects rule source 6 payload :=
    ⟨projects.size.trans few, projects.fields⟩
  cases record with
  | threadStarted threadId => exact more (by decide) (start.addString (by decide) sound)
  | turnStarted => exact more (by decide) start
  | turnFailed message => exact more (by decide) start
  | error message => exact more (by decide) start
  | turnCompleted usage =>
    simp only [RecordSound, List.forall_mem_cons] at sound
    obtain ⟨input, cached, output, reasoning, -⟩ := sound
    exact ((((start.addInteger (by decide) input).addInteger (by decide) cached).addInteger (by decide) output).addInteger (by decide)
      reasoning).addString (by decide) (by decide)
  | item lifecycle item =>
    have named := (start.addString (show isAsciiName "source-item-type" = true by decide) (show (itemType item).utf8ByteSize ≤ 64 by
      cases item <;> exact Nat.le_of_ble_eq_true rfl)).addString
        (show isAsciiName "source-lifecycle" = true by decide) (show (lifecycleLabel lifecycle).utf8ByteSize ≤ 64 by
        cases lifecycle <;> decide)
    cases item with
    | agentMessage id text => exact more (by decide) named
    | reasoning id text => exact more (by decide) named
    | error id message => exact more (by decide) named
    | command id command output exitCode status =>
      have labelled := named.addString (show isAsciiName "source-status" = true by decide) (show (commandStatus status).utf8ByteSize ≤ 64 by
        cases status <;> decide)
      cases exitCode with
      | none => exact more (by decide) (labelled.add (by decide) nullValue_accepted)
      | some code => exact more (by decide) (labelled.add (by decide) (integerValue_accepted (sound code rfl)))
    | fileChange id changes status =>
      have labelled := named.addString (show isAsciiName "source-status" = true by decide) (show (fileStatus status).utf8ByteSize ≤ 64 by
        cases status <;> decide)
      have count := labelled.add (show isAsciiName "change-count" = true by decide) (@integerValue_accepted changes.length
        (Nat.lt_of_le_of_lt sound (by decide)))
      refine count.add (by decide) (array_accepted (by rwa [List.length_map]) fun text listed => ?_)
      obtain ⟨change, -, rfl⟩ := List.mem_map.1 listed
      cases change.kind <;> exact ⟨by show _ ≤ maxNormalizedStringScalars; decide, by decide, by decide⟩
    | todoList id items =>
      exact more (by decide) (named.add (by decide) (array_accepted (by rwa [List.length_map]) fun flag listed =>
        ⟨trivial, by show 2 ≤ maxNormalizedDepth; decide⟩))

end

section

theorem decodeSigned_small {bits : Nat} {json : Json} {value : Int} (fits : bits ≤ 64) (decoded : decodeSigned bits json = some value) :
    value.natAbs < 10 ^ 20 := by
  have wide : 2 ^ (bits - 1) ≤ 2 ^ 63 := Nat.pow_le_pow_right (by decide) (by omega)
  have decimal : 2 ^ 63 < 10 ^ 20 := by decide
  unfold decodeSigned at decoded
  split at decoded
  · obtain ⟨below, same⟩ := Option.ite_none_right_eq_some.1 decoded
    obtain rfl := Option.some.inj same
    exact Nat.lt_trans (Nat.lt_of_lt_of_le below wide) decimal
  · obtain ⟨below, same⟩ := Option.ite_none_right_eq_some.1 decoded
    obtain rfl := Option.some.inj same
    exact Nat.lt_of_le_of_lt (Nat.lt_of_lt_of_le below wide) decimal
  · cases decoded

theorem decodeUsage_small {json : Json} {usage : Usage} (decodes : decodeUsage json = some usage) :
    ∀ count ∈ [usage.inputTokens, usage.cachedInputTokens, usage.outputTokens, usage.reasoningOutputTokens], count.natAbs < 10 ^ 20 := by
  simp only [decodeUsage, Option.bind_eq_bind, Option.bind_eq_some_iff] at decodes
  obtain ⟨fields, -, decodes⟩ := decodes
  split at decodes
  · simp only [Option.bind_eq_some_iff, Option.some.injEq] at decodes
    obtain ⟨input, atInput, cached, atCached, output, atOutput, reasoning, atReasoning, rfl⟩ := decodes
    simp only [List.forall_mem_cons]
    exact ⟨decodeSigned_small (by decide) atInput, decodeSigned_small (by decide) atCached, decodeSigned_small (by decide) atOutput,
      decodeSigned_small (by decide) atReasoning, List.forall_mem_nil _⟩
  · cases decodes

theorem decodeTurnCompleted_small {json : Json} {usage : Usage} (decodes : decodeTurnCompleted json = some usage) :
    RecordSound (.turnCompleted usage) := by
  simp only [decodeTurnCompleted, Option.bind_eq_bind, Option.bind_eq_some_iff] at decodes
  obtain ⟨fields, -, decodes⟩ := decodes
  split at decodes
  · obtain ⟨-, -, decodes⟩ := Option.bind_eq_some_iff.1 decodes
    exact decodeUsage_small decodes
  · cases decodes

theorem decodeCommandItem_small {json : Json} {wire : CommandItemWire} (decodes : decodeCommandItem json = some wire) :
    ∀ code ∈ wire.exitCode, code.natAbs < 10 ^ 20 := by
  simp only [decodeCommandItem, Option.bind_eq_bind, Option.bind_eq_some_iff] at decodes
  obtain ⟨fields, -, decodes⟩ := decodes
  split at decodes
  · simp only [Option.bind_eq_some_iff, Option.some.injEq] at decodes
    obtain ⟨id, -, type, -, command, -, output, -, exitCode, atCode, status, -, rfl⟩ := decodes
    rintro code rfl
    unfold decodeOption at atCode
    split at atCode
    · cases atCode
    · obtain ⟨value, atValue, same⟩ := Option.map_eq_some_iff.1 atCode
      exact Option.some.inj same ▸ decodeSigned_small (by decide) atValue
  · cases decodes

theorem parseItem_sound {value : Json} {index : Nat} {item : Item} {lifecycle : Lifecycle} (run : parseItem value index = .ok item) :
    RecordSound (.item lifecycle item) := by
  obtain ⟨itemType, -, run⟩ := bind_eq_ok.1 run
  split at run
  · obtain ⟨⟨id, text⟩, -, run⟩ := bind_eq_ok.1 run
    obtain rfl := Except.ok.inj run
    trivial
  · obtain ⟨⟨id, text⟩, -, run⟩ := bind_eq_ok.1 run
    obtain ⟨-, run⟩ := guard_eq_ok.1 run
    obtain rfl := Except.ok.inj run
    trivial
  · obtain ⟨⟨id, text⟩, -, run⟩ := bind_eq_ok.1 run
    obtain rfl := Except.ok.inj run
    trivial
  · obtain ⟨wire, decodes, run⟩ := bind_eq_ok.1 run
    obtain ⟨status, -, run⟩ := bind_eq_ok.1 run
    obtain rfl := Except.ok.inj run
    exact decodeCommandItem_small (elim_eq_ok.1 decodes)
  · obtain ⟨wire, decodes, run⟩ := bind_eq_ok.1 run
    obtain ⟨few, run⟩ := guard_eq_ok.1 run
    obtain ⟨changes, each, run⟩ := bind_eq_ok.1 run
    obtain ⟨status, -, run⟩ := bind_eq_ok.1 run
    obtain rfl := Except.ok.inj run
    show changes.length ≤ maxChangesOrTodos
    rw [← (mapM_eq_ok.1 each).length_eq]
    exact Nat.not_lt.1 fun many => few (.inl many)
  · obtain ⟨⟨id, items⟩, -, run⟩ := bind_eq_ok.1 run
    obtain ⟨few, run⟩ := guard_eq_ok.1 run
    obtain rfl := Except.ok.inj run
    exact Nat.not_lt.1 few
  · cases run

theorem parseItemRecord_sound {value : Json} {index : Nat} {lifecycle : Lifecycle} {record : ParsedRecord}
    (run : parseItemRecord value index lifecycle = .ok record) : RecordSound record := by
  obtain ⟨wire, -, run⟩ := bind_eq_ok.1 run
  obtain ⟨item, parsed, run⟩ := bind_eq_ok.1 run
  obtain rfl := Except.ok.inj run
  exact parseItem_sound parsed

theorem parseTyped_sound {value : Json} {index : Nat} {recordType : String} {record : ParsedRecord}
    (run : parseTyped value index recordType = .ok record) : RecordSound record := by
  unfold parseTyped at run
  split at run
  · obtain ⟨threadId, -, run⟩ := bind_eq_ok.1 run
    obtain ⟨uuid, run⟩ := guard_eq_ok.1 run
    obtain rfl := Except.ok.inj run
    have canonical : isCanonicalUuidV7 threadId = true := by simpa using uuid
    have size : threadId.utf8ByteSize = 36 := beq_iff_eq.1 (Bool.and_eq_true_iff.1 canonical).1
    show threadId.utf8ByteSize ≤ 64
    omega
  · obtain ⟨-, -, run⟩ := bind_eq_ok.1 run
    obtain rfl := Except.ok.inj run
    trivial
  · obtain ⟨usage, decodes, run⟩ := bind_eq_ok.1 run
    obtain ⟨-, run⟩ := guard_eq_ok.1 run
    obtain rfl := Except.ok.inj run
    exact decodeTurnCompleted_small (elim_eq_ok.1 decodes)
  · obtain ⟨message, -, run⟩ := bind_eq_ok.1 run
    obtain rfl := Except.ok.inj run
    trivial
  · obtain ⟨message, -, run⟩ := bind_eq_ok.1 run
    obtain rfl := Except.ok.inj run
    trivial
  · exact parseItemRecord_sound run
  · exact parseItemRecord_sound run
  · exact parseItemRecord_sound run
  · cases run

/-- A record that is parsed has a bounded payload and a kind. -/
theorem parseRecord_sound {parse : List UInt8 → Option Json} {entry : List UInt8 × Nat} {record : ParsedRecord}
    (run : parseRecord parse entry = .ok record) : RecordSound record ∧ ∀ index, ∃ kind, normalizedKind record index = .ok kind := by
  obtain ⟨document, -, run⟩ := bind_eq_ok.1 run
  obtain ⟨recordType, -, run⟩ := bind_eq_ok.1 run
  obtain ⟨parsed, typed, run⟩ := bind_eq_ok.1 run
  obtain ⟨⟨⟩, lifecycle, run⟩ := bind_eq_ok.1 run
  obtain rfl := Except.ok.inj run
  refine ⟨parseTyped_sound typed, fun index => ?_⟩
  cases parsed with
  | item stage item =>
    have legal : legalLifecycle stage item = true := check_eq_ok.1 lifecycle
    cases item <;> cases stage <;> first | exact ⟨_, rfl⟩ | cases legal
  | _ => exact ⟨_, rfl⟩

end

section

variable {host : AdapterHost} {rawRecords : List (List UInt8)} {declarations : TrajectoryValidationContext}

/-- Records that a locator can cite. -/
structure Citable (rawRecords : List (List UInt8)) : Prop where
  few : rawRecords.length ≤ 2 ^ 64
  each : ∀ raw ∈ rawRecords, raw ≠ [] ∧ raw.length < 2 ^ 64

theorem Citable.locator (citable : Citable rawRecords) {index : Nat} {raw : List UInt8} (found : rawRecords[index]? = some raw) :
    LocatorValid host.sha256 rawRecords (locator host.sha256 index raw) :=
  have record := citable.each raw (List.mem_of_getElem? found)
  locator_valid found record.1 record.2 citable.few

theorem codexRule_valid (declared : declarations.allowedDerivations = codexRules host.sha256) {rule : ArtifactBinding}
    (listed : rule ∈ codexRules host.sha256) : BindingValid rule ∧ rule ∈ declarations.allowedDerivations :=
  ⟨codexRules_valid rule listed, declared ▸ listed⟩

theorem mapEvent_valid (declared : declarations.allowedDerivations = codexRules host.sha256) (citable : Citable rawRecords)
    {recordZero raw : List UInt8} (first : rawRecords[0]? = some recordZero) {index : Nat} (found : rawRecords[index]? = some raw)
    {runId : String} {record : ParsedRecord} (sound : RecordSound record)
    (named : ∀ lifecycle item, record = .item lifecycle item → isIdentifier item.id = true) {event : AgentActionEvent}
    (run : mapEvent host recordZero runId ((record, raw), index) = .ok event) :
    EventValid host.sha256 rawRecords declarations index event ∧ EventFits event := by
  obtain ⟨eventRule, eventDeclared⟩ := codexRule_valid declared (show eventRule host.sha256 ∈ codexRules host.sha256 by simp [codexRules])
  obtain ⟨positionRule, positionDeclared⟩ := codexRule_valid declared (show positionRule host.sha256 ∈ codexRules host.sha256 by simp [codexRules])
  obtain ⟨fieldRule, fieldDeclared⟩ := codexRule_valid declared (show fieldRule host.sha256 ∈ codexRules host.sha256 by simp [codexRules])
  have zero := @Citable.locator host _ citable _ _ first
  have source := @Citable.locator host _ citable _ _ found
  obtain ⟨kind, -, made⟩ := bind_eq_ok.1 run
  obtain rfl := Except.ok.inj made
  have identifier : isIdentifier (eventId host runId index raw) = true :=
    isIdentifier_digestTail (by decide) (by decide) (isDigest_framedSha256 _ _ _)
  have one : 1 ≤ maxDerivationInputs := by decide
  have eventField : FieldValid host.sha256 rawRecords declarations (isIdentifier · = true) (derivedFrom (eventId host runId index raw)
      (CodexExec.eventRule host.sha256) (if index = 0 then [locator host.sha256 0 recordZero] else
        [locator host.sha256 0 recordZero, locator host.sha256 index raw])) := by
    by_cases atStart : index = 0
    · rw [if_pos atStart]
      exact derived_valid eventRule eventDeclared zero identifier
    · rw [if_neg atStart]
      refine derivedFrom_valid eventRule eventDeclared (List.cons_ne_nil _ _) ?_ ?_ identifier
      · exact List.forall_mem_cons.2 ⟨zero, List.forall_mem_singleton.2 source⟩
      · have inside : index < 2 ^ 64 := Nat.lt_of_lt_of_le (List.getElem?_eq_some_iff.1 found).1 citable.few
        refine List.nodup_cons.2 ⟨fun member => atStart ?_, List.nodup_singleton _⟩
        have same := congrArg (fun range => range.1.toNat) (List.mem_singleton.1 member)
        have position : (UInt64.ofNat index).toNat = index := UInt64.toNat_ofNat_of_lt' inside
        exact position.symm.trans same.symm
  have fewInputs : (if index = 0 then [locator host.sha256 0 recordZero] else
      [locator host.sha256 0 recordZero, locator host.sha256 index raw]).length ≤ maxDerivationInputs := by
    split <;> exact Nat.le_of_ble_eq_true rfl
  have positionField : FieldValid host.sha256 rawRecords declarations (· = UInt64.ofNat index) (derived (UInt64.ofNat index)
      (CodexExec.positionRule host.sha256) (locator host.sha256 index raw)) := derived_valid positionRule positionDeclared source rfl
  have kindField : FieldValid host.sha256 rawRecords declarations (fun _ => True) (derived kind (CodexExec.fieldRule host.sha256)
      (locator host.sha256 index raw)) := derived_valid fieldRule fieldDeclared source trivial
  have payload := @payload_projects (CodexExec.fieldRule host.sha256) (locator host.sha256 index raw) record sound
  have itemField : ∀ field ∈ sourceItemId (CodexExec.fieldRule host.sha256) (locator host.sha256 index raw) record,
      FieldValid host.sha256 rawRecords declarations (isIdentifier · = true) field ∧ IdentifierFits field := by
    intro field listed
    cases record with
    | item lifecycle item =>
      obtain rfl := Option.some.inj listed
      have idField : FieldValid host.sha256 rawRecords declarations (isIdentifier · = true) (derived item.id (CodexExec.fieldRule host.sha256)
          (locator host.sha256 index raw)) := derived_valid fieldRule fieldDeclared source (named lifecycle item rfl)
      refine ⟨idField, fun value same => ?_, evidence_fits idField.evidence one⟩
      exact Option.some.inj same ▸ (isIdentifier_plain (named lifecycle item rfl)).1
    | _ => cases listed
  constructor
  · refine ⟨eventField, positionField, kindField, fun field listed => (itemField field listed).1, rfl, ⟨raw, found, rfl⟩, fun field member => ?_⟩
    obtain ⟨ascii, value, same, accepted⟩ := payload.fields field member
    exact ⟨ascii, same ▸ derived_valid fieldRule fieldDeclared source accepted.1⟩
  · refine ⟨⟨fun value same => Option.some.inj same ▸ (isIdentifier_plain identifier).1, evidence_fits eventField.evidence fewInputs⟩,
      evidence_fits positionField.evidence one, evidence_fits kindField.evidence one, fun field listed => (itemField field listed).2,
      Nat.le_of_eq (utf8ByteSize_framedSha256 _ _ _), payload.size.trans (by decide), fun field member => ?_⟩
    obtain ⟨ascii, value, same, accepted⟩ := payload.fields field member
    have valid : FieldValid host.sha256 rawRecords declarations (fun _ => True) field.2 :=
      same ▸ derived_valid fieldRule fieldDeclared source trivial
    refine ⟨(isAsciiName_plain ascii).1, evidence_fits valid.evidence (by rw [same]; exact one), fun present known => ?_⟩
    rw [same] at known
    exact Option.some.inj known ▸ accepted.2

end

section

variable {host : AdapterHost} {jsonl : List UInt8} {capture : FramedCapture}

theorem framed_citable (framed : parseOwned host.reader jsonl = .ok capture) : Citable capture.recordSlices := by
  have slices := parseOwned_slices framed
  obtain ⟨wellFramed, -⟩ := parseOwned_eq_ok.1 framed
  rw [slices]
  refine ⟨wellFramed.count.trans (by decide), fun raw listed => ?_⟩
  obtain ⟨positive, short, -⟩ := wellFramed.records raw listed
  exact ⟨List.length_pos_iff.1 positive, Nat.lt_of_le_of_lt short (by decide)⟩

theorem framed_objects (framed : parseOwned host.reader jsonl = .ok capture) :
    ∀ record ∈ capture.recordSlices, record.length ≤ maxCodexRecordBytes ∧ rejectDuplicateJsonKeys host.reader record = .ok .object := by
  have slices := parseOwned_slices framed
  obtain ⟨wellFramed, -⟩ := parseOwned_eq_ok.1 framed
  rw [slices]
  intro record listed
  obtain ⟨-, short, fields, parsed, keeps⟩ := wellFramed.records record listed
  refine ⟨short, scanJsonWithLimits_eq_ok.2 ⟨_, parsed, ⟨?_, ?_, ?_, ?_, keeps.scannable⟩, rfl⟩⟩
  · exact keeps.depth.trans (by decide)
  · exact keeps.nodes.trans (by decide)
  · exact keeps.keys.trans (by decide)
  · exact keeps.strings.trans (by decide)

theorem sum_le_joined (records : List (List UInt8)) : (records.map List.length).sum ≤ (joined records).length := by
  induction records with
  | nil => exact Nat.le_refl 0
  | cons record rest ih =>
    rw [joined_cons, List.length_append, List.length_cons, List.map_cons, List.sum_cons]
    omega

theorem framed_bytes (framed : parseOwned host.reader jsonl = .ok capture) :
    (capture.recordSlices.map List.length).sum ≤ maxRawCaptureBytes := by
  have slices := parseOwned_slices framed
  obtain ⟨wellFramed, -⟩ := parseOwned_eq_ok.1 framed
  obtain ⟨records, rfl, single⟩ := exists_joined_of_ended wellFramed.ended
  rw [slices, plainRecords_joined single]
  exact ((sum_le_joined records).trans wellFramed.size).trans (by decide)

variable {records : List ParsedRecord}

theorem FreshTurn.named (fresh : FreshTurn records) (bounded : itemCount records < 2 ^ 64) {lifecycle : Lifecycle} {item : Item}
    (listed : .item lifecycle item ∈ records) : isIdentifier item.id = true := by
  obtain ⟨count, names⟩ := fresh.canonicalIds
  have size : itemCount records = count := by rw [itemCount, names, List.length_map, List.length_range]
  have member : item.id ∈ itemIds records := List.mem_map.2 ⟨(lifecycle, item), List.mem_filterMap.2 ⟨_, listed, rfl⟩, rfl⟩
  rw [← List.mem_eraseDups, names] at member
  obtain ⟨index, below, same⟩ := List.mem_map.1 member
  have small := List.mem_range.1 below
  rw [← same]
  exact isIdentifier_itemName (Nat.lt_of_lt_of_le (Nat.lt_trans small (size ▸ bounded)) (by decide))

variable {rawCapture : RawCaptureSeal} {policy : ArtifactBinding} {rawRecords : List (List UInt8)} {mapped : Mapped}

theorem mapRecords_eq_ok (run : mapRecordsWithBindings host records rawRecords rawCapture policy = .ok mapped) :
    records.length = rawRecords.length ∧ ∃ threadId recordZero events, rawRecords[0]? = some recordZero ∧
      List.Forall₂ (fun entry event => mapEvent host recordZero (runId host recordZero threadId) entry = .ok event)
        (records.zip rawRecords).zipIdx events ∧
      mapped = ⟨⟨host.schemaBinding, derived (runId host recordZero threadId) (runRule host.sha256) (locator host.sha256 0 recordZero),
        host.adapterBinding, policy, rawCapture, events⟩, ⟨host.adapterBinding, policy, rawCapture, codexRules host.sha256⟩⟩ := by
  obtain ⟨same, run⟩ := guard_eq_ok.1 run
  refine ⟨not_not.1 same, ?_⟩
  split at run
  · obtain ⟨⟨threadId, recordZero⟩, atStart, run⟩ := bind_eq_ok.1 run
    obtain ⟨rfl, rfl⟩ := Prod.mk.inj (Except.ok.inj atStart)
    obtain ⟨events, each, run⟩ := bind_eq_ok.1 run
    exact ⟨_, _, events, rfl, mapM_eq_ok.1 each, (Except.ok.inj run).symm⟩
  · cases run
  · cases run

theorem exists_mapRecords (same : records.length = rawRecords.length) (starts : startsThread records = true)
    (kinds : ∀ record ∈ records, ∀ index, ∃ kind, normalizedKind record index = .ok kind) :
    ∃ mapped, mapRecordsWithBindings host records rawRecords rawCapture policy = .ok mapped := by
  unfold mapRecordsWithBindings
  rw [if_neg (not_not.2 same)]
  cases records with
  | nil => cases starts
  | cons first rest =>
    cases first with
    | threadStarted threadId =>
      cases rawRecords with
      | nil => cases same
      | cons recordZero more =>
        have each : ∀ entry ∈ ((ParsedRecord.threadStarted threadId :: rest).zip (recordZero :: more)).zipIdx, ∃ event,
            mapEvent host recordZero (runId host recordZero threadId) entry = .ok event := by
          rintro ⟨⟨record, raw⟩, index⟩ listed
          have inside := List.mem_of_getElem? (List.mem_zipIdx_iff_getElem?.1 listed)
          obtain ⟨kind, atKind⟩ := kinds record (List.of_mem_zip inside).1 index
          exact ⟨_, bind_eq_ok.2 ⟨kind, atKind, rfl⟩⟩
        obtain ⟨events, run⟩ := exists_mapM each
        exact ⟨_, bind_eq_ok.2 ⟨_, rfl, bind_eq_ok.2 ⟨events, run, rfl⟩⟩⟩
    | _ => cases starts

/-- The totals that a mapped trace can still exceed, and its identifiers. -/
structure MappedFits (host : AdapterHost) (trace : TrajectoryTrace) : Prop where
  charges : ChargesFit (traceCharges trace)
  compact : ((traceJson trace).compactBytes host.floatText).length ≤ maxTraceCompactJsonBytes
  distinct : (trace.events.map (·.eventId.value)).Nodup

theorem parsed_sound {parse : List UInt8 → Option Json} (parsed : rawRecords.zipIdx.mapM (parseRecord parse) = .ok records) :
    ∀ record ∈ records, RecordSound record ∧ ∀ index, ∃ kind, normalizedKind record index = .ok kind := by
  intro record listed
  obtain ⟨entry, -, read⟩ := exists_partner (List.Forall₂.flip (mapM_eq_ok.1 parsed)) listed
  exact parseRecord_sound read

theorem mapped_events (framed : parseOwned host.reader jsonl = .ok capture)
    (parsed : capture.recordSlices.zipIdx.mapM (parseRecord host.reader.parse) = .ok records) (fresh : FreshTurn records)
    (bounded : itemCount records < 2 ^ 64) (run : mapRecordsWithBindings host records capture.recordSlices rawCapture policy = .ok mapped)
    {index : Nat} {event : AgentActionEvent} (listed : mapped.trace.events[index]? = some event) :
    EventValid host.sha256 capture.recordSlices mapped.validationDeclarations index event ∧ EventFits event := by
  obtain ⟨same, threadId, recordZero, events, first, each, rfl⟩ := mapRecords_eq_ok run
  obtain ⟨inside, atIndex⟩ := List.getElem?_eq_some_iff.1 listed
  have length := each.length_eq
  rw [List.length_zipIdx, List.length_zip, same, Nat.min_self] at length
  have bound : index < ((records.zip capture.recordSlices).zipIdx).length := by
    rw [List.length_zipIdx, List.length_zip, same, Nat.min_self]
    exact length ▸ inside
  have made := each.get bound inside
  rw [List.get_eq_getElem, List.get_eq_getElem, atIndex, List.getElem_zipIdx, List.getElem_zip, Nat.zero_add] at made
  have place : index < records.length := same ▸ length ▸ inside
  have member : records[index] ∈ records := List.getElem_mem place
  refine mapEvent_valid rfl (framed_citable framed) first (List.getElem?_eq_getElem _) (parsed_sound parsed _ member).1
    (fun lifecycle item isItem => ?_) made
  exact fresh.named bounded (isItem ▸ member)

theorem mapped_valid (framed : parseOwned host.reader jsonl = .ok capture)
    (parsed : capture.recordSlices.zipIdx.mapM (parseRecord host.reader.parse) = .ok records) (fresh : FreshTurn records)
    (bounded : itemCount records < 2 ^ 64) (sealed : rawCapture = rawCaptureSeal host.sha256 capture.recordSlices) (valid : BindingValid policy)
    (run : mapRecordsWithBindings host records capture.recordSlices rawCapture policy = .ok mapped) (fits : MappedFits host mapped.trace) :
    TraceValid host.toHost mapped.trace capture.recordSlices mapped.validationDeclarations := by
  have events {index : Nat} {event : AgentActionEvent} := @mapped_events host _ _ _ _ _ _ framed parsed fresh bounded run index event
  have objects := framed_objects framed
  obtain ⟨wellFramed, -⟩ := parseOwned_eq_ok.1 framed
  have few := wellFramed.count
  rw [← parseOwned_slices framed] at few
  obtain ⟨same, threadId, recordZero, built, first, each, rfl⟩ := mapRecords_eq_ok run
  have length := each.length_eq
  rw [List.length_zipIdx, List.length_zip, same, Nat.min_self] at length
  have one : 1 ≤ maxDerivationInputs := by decide
  have identifier : isIdentifier (runId host recordZero threadId) = true :=
    isIdentifier_digestTail (by decide) (by decide) (isDigest_framedSha256 _ _ _)
  have runField : FieldValid host.sha256 capture.recordSlices ⟨host.adapterBinding, policy, rawCapture, codexRules host.sha256⟩
      (isIdentifier · = true) (derived (runId host recordZero threadId) (runRule host.sha256) (locator host.sha256 0 recordZero)) :=
    derived_valid (@codexRules_valid host.sha256 _ (by simp [codexRules])) (by simp [codexRules]) ((framed_citable framed).locator first) identifier
  have digest : rawCapture.digest.utf8ByteSize ≤ 71 := sealed ▸ Nat.le_of_eq (utf8ByteSize_framedSha256 _ _ _)
  exact {
    recordBytes record listed := (objects record listed).1.trans (by decide)
    captureBytes := framed_bytes framed
    parts := {
      schema := schemaBinding_valid.fits
      runId := ⟨fun value known => Option.some.inj known ▸ (isIdentifier_plain identifier).1, evidence_fits runField.evidence one⟩
      adapter := host.adapterBinding_valid.fits
      policy := valid.fits
      rawCapture := digest
      eventCount := (length ▸ few : built.length ≤ maxCodexRecords).trans (by decide)
      events event listed := by
        obtain ⟨index, found⟩ := List.getElem?_of_mem listed
        exact (events found).2 }
    charges := fits.charges
    compact := fits.compact
    schema := rfl
    adapter := ⟨host.adapterBinding_valid, rfl⟩
    policy := ⟨valid, rfl⟩
    declared := rfl
    sealed
    objects record listed := (objects record listed).2
    nonempty empty := by
      have inside := (List.getElem?_eq_some_iff.1 first).1
      have none : built.length = 0 := congrArg List.length empty
      omega
    oneEach := length.symm
    runId := runField
    events entry listed := (events (List.mem_zipIdx_iff_getElem?.1 listed)).1
    distinct := fits.distinct }

variable {authority : InputAuthorityReceipt} {context : TrustedAdaptationContext}

/-- What the adapter accepts: a framed capture that the receipt authorizes, whose records are parsed and make up a fresh turn with a fitting
exit, and whose trace keeps the totals and has different identifiers. The evidence, the names and the values that the mapping writes are
always accepted. -/
theorem adapt_accepts_iff (host : AdapterHost) (jsonl : List UInt8) (authority : InputAuthorityReceipt) (context : TrustedAdaptationContext) :
    (∃ adapted, adapt host jsonl authority context = .ok adapted) ↔
      ∃ capture records, parseOwned host.reader jsonl = .ok capture ∧ authority.authorize host capture context = .ok ⟨⟩ ∧
        capture.recordSlices.zipIdx.mapM (parseRecord host.reader.parse) = .ok records ∧
        FreshTurn records ∧ itemCount records < 2 ^ 64 ∧
        (∃ terminal, records.findSome? terminalOf = some terminal ∧ Terminates terminal authority.processTermination) ∧
        ∀ mapped, mapRecordsWithBindings host records capture.recordSlices authority.rawSeal context.downstreamGovernancePolicy = .ok mapped →
          MappedFits host mapped.trace := by
  constructor
  · rintro ⟨adapted, accepted⟩
    have steps := adapt_eq_ok.1 accepted
    obtain ⟨records, terminal, parsed, stream, run⟩ := steps.mapped
    obtain ⟨fresh, bounded, found, ended⟩ := validateStream_eq_ok.1 stream
    refine ⟨adapted.capture, records, steps.framed, steps.authorized, parsed, fresh, bounded, ⟨terminal, found, ended⟩, fun mapped other => ?_⟩
    obtain rfl := Except.ok.inj (run.symm.trans other)
    have valid := validateTrace_eq_ok.1 steps.valid
    exact ⟨valid.charges, valid.compact, valid.distinct⟩
  · rintro ⟨capture, records, framed, authorized, parsed, fresh, bounded, ⟨terminal, found, ended⟩, fits⟩
    have length : records.length = capture.recordSlices.length := by
      rw [← (mapM_eq_ok.1 parsed).length_eq, List.length_zipIdx]
    obtain ⟨mapped, run⟩ := @exists_mapRecords host records authority.rawSeal context.downstreamGovernancePolicy _ length
      (startsThread_of_freshTurn fresh) fun record listed => (parsed_sound parsed record listed).2
    have valid := mapped_valid framed parsed fresh bounded (authorize_rawSeal authorized) (context_policy context) run (fits mapped run)
    exact ⟨⟨capture, mapped.trace, mapped.validationDeclarations, authority.commitment host.sha256, authority.evidenceClass⟩,
      adapt_eq_ok.2 ⟨framed, authorized, ⟨records, terminal, parsed, validateStream_eq_ok.2 ⟨fresh, bounded, found, ended⟩, run⟩, rfl, rfl,
        validateTrace_eq_ok.2 valid⟩⟩

end

end Legitimacy.CodexExec
