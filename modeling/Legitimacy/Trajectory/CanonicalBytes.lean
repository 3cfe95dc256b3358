import Legitimacy.Trajectory.Trace

namespace Legitimacy.Trajectory

open PrefixCode

def traceCanonicalMagic : List UInt8 := Utf8.bytes "legitimacy.trajectory.trace.canonical.v0\x00"

def putU64 (value : UInt64) : List UInt8 := bigEndian value

def putLen (value : Nat) : List UInt8 := putU64 (.ofNat value)

def putString (value : String) : List UInt8 := putLen value.utf8ByteSize ++ Utf8.bytes value

def encodeBinding (binding : ArtifactBinding) : List UInt8 :=
  putString binding.identity ++ (putString binding.version ++ putString binding.hash)

def encodeLocator (locator : SourceLocator) : List UInt8 :=
  putU64 locator.recordIndex ++ (putU64 locator.byteOffset ++ (putU64 locator.byteLength ++ putString locator.digest))

def encodeEvidence : Evidence → List UInt8
  | .citesRawRange locator => 0 :: encodeLocator locator
  | .declaredDerivationBinding rule sourceInputs =>
    1 :: (encodeBinding rule ++ (putLen sourceInputs.length ++ sourceInputs.flatMap encodeLocator))
  | .unavailable reason => 2 :: putString reason

def encodeOption {α : Type} (encode : α → List UInt8) : Option α → List UInt8 := optional 0 1 encode

def encodeEvidenced {α : Type} (encodeValue : α → List UInt8) (field : Evidenced α) : List UInt8 :=
  encodeOption encodeValue field.value ++ encodeEvidence field.evidence

mutual

def encodeNormalizedValue : NormalizedTree → List UInt8
  | .null => [0]
  | .boolean value => [1, if value then 1 else 0]
  | .integer digits => 2 :: putString digits
  | .string text => 3 :: putString text
  | .array values => 4 :: (putLen values.length ++ encodeValues values)
  | .object fields => 5 :: (putLen fields.length ++ encodeFields fields)

def encodeValues : List NormalizedTree → List UInt8
  | [] => []
  | value :: rest => encodeNormalizedValue value ++ encodeValues rest

def encodeFields : List (String × NormalizedTree) → List UInt8
  | [] => []
  | (key, value) :: rest => putString key ++ (encodeNormalizedValue value ++ encodeFields rest)

end

def encodePayloadField (field : String × Evidenced NormalizedValue) : List UInt8 :=
  putString field.1 ++ encodeEvidenced (fun value => encodeNormalizedValue value.tree) field.2

def canonicalEventBytes (event : AgentActionEvent) : List UInt8 :=
  encodeEvidenced putString event.eventId ++ (encodeEvidenced putU64 event.sequenceIndex ++
    (encodeEvidenced (fun kind => putString kind.label) event.kind ++
      (encodeOption (encodeEvidenced putString) event.sourceItemId ++ (putU64 event.rawRecord.recordIndex ++
        (putString event.rawRecord.digest ++ (putLen event.payload.size ++ event.payload.toList.flatMap encodePayloadField))))))

def canonicalHeaderBytes (trace : TrajectoryTrace) : List UInt8 :=
  traceCanonicalMagic ++ (encodeBinding trace.schema ++ (encodeEvidenced putString trace.runId ++ (encodeBinding trace.adapter ++
    (encodeBinding trace.policy ++ (putU64 trace.rawCapture.recordCount ++ (putString trace.rawCapture.digest ++
      putLen trace.events.length))))))

def canonicalBytes (trace : TrajectoryTrace) : List UInt8 := canonicalHeaderBytes trace ++ trace.events.flatMap canonicalEventBytes

/-- The lengths that fit a length prefix. -/
def ShortString (value : String) : Prop := value.utf8ByteSize < 2 ^ 64

def ShortBinding (binding : ArtifactBinding) : Prop := ShortString binding.identity ∧ ShortString binding.version ∧ ShortString binding.hash

def ShortLocator (locator : SourceLocator) : Prop := ShortString locator.digest

def ShortEvidence : Evidence → Prop
  | .citesRawRange locator => ShortLocator locator
  | .declaredDerivationBinding rule sourceInputs =>
    ShortBinding rule ∧ sourceInputs.length < 2 ^ 64 ∧ ∀ locator ∈ sourceInputs, ShortLocator locator
  | .unavailable reason => ShortString reason

def ShortEvidenced {α : Type} (short : α → Prop) (field : Evidenced α) : Prop :=
  (∀ value ∈ field.value, short value) ∧ ShortEvidence field.evidence

mutual

def ShortTree : NormalizedTree → Prop
  | .null => True
  | .boolean _ => True
  | .integer digits => ShortString digits
  | .string text => ShortString text
  | .array values => values.length < 2 ^ 64 ∧ ShortTrees values
  | .object fields => fields.length < 2 ^ 64 ∧ ShortFields fields

def ShortTrees : List NormalizedTree → Prop
  | [] => True
  | value :: rest => ShortTree value ∧ ShortTrees rest

def ShortFields : List (String × NormalizedTree) → Prop
  | [] => True
  | (key, value) :: rest => ShortString key ∧ ShortTree value ∧ ShortFields rest

end

structure ShortEvent (event : AgentActionEvent) : Prop where
  eventId : ShortEvidenced ShortString event.eventId
  sequenceIndex : ShortEvidence event.sequenceIndex.evidence
  kind : ShortEvidence event.kind.evidence
  sourceItemId : ∀ field ∈ event.sourceItemId, ShortEvidenced ShortString field
  rawRecord : ShortString event.rawRecord.digest
  payloadSize : event.payload.size < 2 ^ 64
  payload : ∀ field ∈ event.payload.toList, ShortString field.1 ∧ ShortEvidenced (fun value => ShortTree value.tree) field.2

structure ShortTrace (trace : TrajectoryTrace) : Prop where
  schema : ShortBinding trace.schema
  runId : ShortEvidenced ShortString trace.runId
  adapter : ShortBinding trace.adapter
  policy : ShortBinding trace.policy
  rawCapture : ShortString trace.rawCapture.digest
  eventCount : trace.events.length < 2 ^ 64
  events : ∀ event ∈ trace.events, ShortEvent event

theorem putU64_free : PrefixFree (fun _ => True) putU64 := bigEndian_prefixFree

theorem putLen_free : PrefixFree (fun size => size < 2 ^ 64) putLen := by
  refine prefixFree_of_length 8 (fun _ _ => rfl) fun first second atFirst atSecond same => ?_
  have numbers := UInt64.toNat_inj.2 (bigEndian_injective same)
  rwa [UInt64.toNat_ofNat_of_lt' atFirst, UInt64.toNat_ofNat_of_lt' atSecond] at numbers

theorem putString_free : PrefixFree ShortString putString := by
  intro first second rest other atFirst atSecond same
  simp only [putString, List.append_assoc] at same
  obtain ⟨size, texts⟩ := putLen_free _ _ _ _ atFirst atSecond same
  obtain ⟨bytes, rests⟩ := List.append_inj texts (by rw [Utf8.length_bytes, Utf8.length_bytes, size])
  exact ⟨Utf8.bytes_injective bytes, rests⟩

theorem encodeBinding_free : PrefixFree ShortBinding encodeBinding := by
  intro first second rest other atFirst atSecond same
  simp only [encodeBinding, List.append_assoc] at same
  obtain ⟨identity, same⟩ := putString_free _ _ _ _ atFirst.1 atSecond.1 same
  obtain ⟨version, same⟩ := putString_free _ _ _ _ atFirst.2.1 atSecond.2.1 same
  obtain ⟨hash, same⟩ := putString_free _ _ _ _ atFirst.2.2 atSecond.2.2 same
  cases first
  cases second
  simp_all

theorem encodeLocator_free : PrefixFree ShortLocator encodeLocator := by
  intro first second rest other atFirst atSecond same
  simp only [encodeLocator, List.append_assoc] at same
  obtain ⟨recordIndex, same⟩ := putU64_free _ _ _ _ trivial trivial same
  obtain ⟨byteOffset, same⟩ := putU64_free _ _ _ _ trivial trivial same
  obtain ⟨byteLength, same⟩ := putU64_free _ _ _ _ trivial trivial same
  obtain ⟨digest, same⟩ := putString_free _ _ _ _ atFirst atSecond same
  cases first
  cases second
  simp_all

theorem encodeEvidence_free : PrefixFree ShortEvidence encodeEvidence := by
  intro first second rest other atFirst atSecond same
  cases first with
  | citesRawRange locator =>
    cases second with
    | citesRawRange locator' =>
      obtain ⟨rfl, rests⟩ := encodeLocator_free _ _ _ _ atFirst atSecond (List.tail_eq_of_cons_eq same)
      exact ⟨rfl, rests⟩
    | _ => exact absurd (List.head_eq_of_cons_eq same) (by decide)
  | declaredDerivationBinding rule sourceInputs =>
    cases second with
    | declaredDerivationBinding rule' sourceInputs' =>
      have same := List.tail_eq_of_cons_eq same
      simp only [List.append_eq, List.append_assoc] at same
      obtain ⟨rfl, behindRule⟩ := encodeBinding_free _ _ _ _ atFirst.1 atSecond.1 same
      obtain ⟨length, locators⟩ := putLen_free _ _ _ _ atFirst.2.1 atSecond.2.1 behindRule
      obtain ⟨rfl, rests⟩ := encodeLocator_free.flatMap length atFirst.2.2 atSecond.2.2 locators
      exact ⟨rfl, rests⟩
    | _ => exact absurd (List.head_eq_of_cons_eq same) (by decide)
  | unavailable reason =>
    cases second with
    | unavailable reason' =>
      obtain ⟨rfl, rests⟩ := putString_free _ _ _ _ atFirst atSecond (List.tail_eq_of_cons_eq same)
      exact ⟨rfl, rests⟩
    | _ => exact absurd (List.head_eq_of_cons_eq same) (by decide)

section

variable {α : Type} {short : α → Prop} {encode : α → List UInt8}

theorem encodeOption_free (free : PrefixFree short encode) :
    PrefixFree (fun value => ∀ inner ∈ value, short inner) (encodeOption encode) :=
  free.optional (by decide)

theorem encodeEvidenced_free (free : PrefixFree short encode) : PrefixFree (ShortEvidenced short) (encodeEvidenced encode) := by
  intro first second rest other atFirst atSecond same
  simp only [encodeEvidenced, List.append_assoc] at same
  obtain ⟨value, same⟩ := encodeOption_free free _ _ _ _ atFirst.1 atSecond.1 same
  obtain ⟨evidence, same⟩ := encodeEvidence_free _ _ _ _ atFirst.2 atSecond.2 same
  cases first
  cases second
  simp_all

end

theorem label_injective : Function.Injective NormalizedEventKind.label := by
  intro first second same
  cases first <;> cases second <;> first | rfl | exact absurd same (by decide)

theorem shortLabel (kind : NormalizedEventKind) : ShortString kind.label := by
  cases kind <;> exact Nat.lt_of_le_of_lt (by decide : _ ≤ 14) (by decide)

theorem putLabel_free : PrefixFree (fun _ => True) fun kind : NormalizedEventKind => putString kind.label := by
  intro first second rest other _ _ same
  obtain ⟨labels, rests⟩ := putString_free _ _ _ _ (shortLabel first) (shortLabel second) same
  exact ⟨label_injective labels, rests⟩

mutual

theorem encodeNormalizedValue_free : (first : NormalizedTree) → ∀ {second : NormalizedTree} {rest other : List UInt8}, ShortTree first →
    ShortTree second → encodeNormalizedValue first ++ rest = encodeNormalizedValue second ++ other → first = second ∧ rest = other
  | .null, second, rest, other, atFirst, atSecond, same => by
    cases second <;> simp_all [encodeNormalizedValue]
  | .boolean value, second, rest, other, atFirst, atSecond, same => by
    cases second <;> cases value <;> simp_all [encodeNormalizedValue]
  | .integer digits, second, rest, other, atFirst, atSecond, same => by
    cases second with
    | integer digits' =>
      obtain ⟨rfl, rests⟩ := putString_free _ _ _ _ atFirst atSecond (List.tail_eq_of_cons_eq same)
      exact ⟨rfl, rests⟩
    | _ => exact absurd (List.head_eq_of_cons_eq same) (by decide)
  | .string text, second, rest, other, atFirst, atSecond, same => by
    cases second with
    | string text' =>
      obtain ⟨rfl, rests⟩ := putString_free _ _ _ _ atFirst atSecond (List.tail_eq_of_cons_eq same)
      exact ⟨rfl, rests⟩
    | _ => exact absurd (List.head_eq_of_cons_eq same) (by decide)
  | .array values, second, rest, other, atFirst, atSecond, same => by
    cases second with
    | array values' =>
      have same := List.tail_eq_of_cons_eq same
      simp only [List.append_eq, List.append_assoc] at same
      obtain ⟨length, same⟩ := putLen_free _ _ _ _ atFirst.1 atSecond.1 same
      obtain ⟨rfl, rests⟩ := encodeValues_free values length atFirst.2 atSecond.2 same
      exact ⟨rfl, rests⟩
    | _ => exact absurd (List.head_eq_of_cons_eq same) (by decide)
  | .object fields, second, rest, other, atFirst, atSecond, same => by
    cases second with
    | object fields' =>
      have same := List.tail_eq_of_cons_eq same
      simp only [List.append_eq, List.append_assoc] at same
      obtain ⟨length, same⟩ := putLen_free _ _ _ _ atFirst.1 atSecond.1 same
      obtain ⟨rfl, rests⟩ := encodeFields_free fields length atFirst.2 atSecond.2 same
      exact ⟨rfl, rests⟩
    | _ => exact absurd (List.head_eq_of_cons_eq same) (by decide)

theorem encodeValues_free : (first : List NormalizedTree) → ∀ {second : List NormalizedTree} {rest other : List UInt8},
    first.length = second.length → ShortTrees first → ShortTrees second → encodeValues first ++ rest = encodeValues second ++ other →
      first = second ∧ rest = other
  | [], second, rest, other, length, atFirst, atSecond, same => by
    obtain rfl := List.length_eq_zero_iff.1 length.symm
    exact ⟨rfl, same⟩
  | value :: values, second, rest, other, length, atFirst, atSecond, same => by
    cases second with
    | nil => cases length
    | cons value' values' =>
      simp only [encodeValues, List.append_assoc] at same
      obtain ⟨rfl, behind⟩ := encodeNormalizedValue_free value atFirst.1 atSecond.1 same
      obtain ⟨rfl, rests⟩ := encodeValues_free values (Nat.succ.inj length) atFirst.2 atSecond.2 behind
      exact ⟨rfl, rests⟩

theorem encodeFields_free : (first : List (String × NormalizedTree)) → ∀ {second : List (String × NormalizedTree)} {rest other : List UInt8},
    first.length = second.length → ShortFields first → ShortFields second → encodeFields first ++ rest = encodeFields second ++ other →
      first = second ∧ rest = other
  | [], second, rest, other, length, atFirst, atSecond, same => by
    obtain rfl := List.length_eq_zero_iff.1 length.symm
    exact ⟨rfl, same⟩
  | (key, value) :: fields, second, rest, other, length, atFirst, atSecond, same => by
    cases second with
    | nil => cases length
    | cons field' fields' =>
      simp only [encodeFields, List.append_assoc] at same
      obtain ⟨rfl, behindKey⟩ := putString_free _ _ _ _ atFirst.1 atSecond.1 same
      obtain ⟨rfl, behind⟩ := encodeNormalizedValue_free value atFirst.2.1 atSecond.2.1 behindKey
      obtain ⟨rfl, rests⟩ := encodeFields_free fields (Nat.succ.inj length) atFirst.2.2 atSecond.2.2 behind
      exact ⟨rfl, rests⟩

end

theorem encodeTree_free :
    PrefixFree (fun value : NormalizedValue => ShortTree value.tree) fun value => encodeNormalizedValue value.tree := by
  intro first second rest other atFirst atSecond same
  obtain ⟨trees, rests⟩ := encodeNormalizedValue_free first.tree atFirst atSecond same
  cases first
  cases second
  obtain rfl := trees
  exact ⟨rfl, rests⟩

theorem encodePayloadField_free : PrefixFree (fun field : String × Evidenced NormalizedValue =>
    ShortString field.1 ∧ ShortEvidenced (fun value => ShortTree value.tree) field.2) encodePayloadField := by
  intro first second rest other atFirst atSecond same
  simp only [encodePayloadField, List.append_assoc] at same
  obtain ⟨key, same⟩ := putString_free _ _ _ _ atFirst.1 atSecond.1 same
  obtain ⟨field, rests⟩ := encodeEvidenced_free encodeTree_free _ _ _ _ atFirst.2 atSecond.2 same
  exact ⟨Prod.ext key field, rests⟩

theorem payload_inj {first second : BTreeMap String (Evidenced NormalizedValue)} (same : first.toList = second.toList) : first = second := by
  exact Std.ExtTreeMap.ext_toList (.of_eq same)

theorem canonicalEventBytes_free : PrefixFree ShortEvent canonicalEventBytes := by
  intro first second rest other atFirst atSecond same
  simp only [canonicalEventBytes, List.append_assoc] at same
  obtain ⟨eventId, same⟩ := encodeEvidenced_free putString_free _ _ _ _ atFirst.eventId atSecond.eventId same
  obtain ⟨sequenceIndex, same⟩ := encodeEvidenced_free putU64_free _ _ _ _ ⟨fun _ _ => trivial, atFirst.sequenceIndex⟩
    ⟨fun _ _ => trivial, atSecond.sequenceIndex⟩ same
  obtain ⟨kind, same⟩ := encodeEvidenced_free putLabel_free _ _ _ _ ⟨fun _ _ => trivial, atFirst.kind⟩
    ⟨fun _ _ => trivial, atSecond.kind⟩ same
  obtain ⟨sourceItemId, same⟩ := encodeOption_free (encodeEvidenced_free putString_free) _ _ _ _ atFirst.sourceItemId
    atSecond.sourceItemId same
  obtain ⟨recordIndex, same⟩ := putU64_free _ _ _ _ trivial trivial same
  obtain ⟨digest, same⟩ := putString_free _ _ _ _ atFirst.rawRecord atSecond.rawRecord same
  obtain ⟨size, same⟩ := putLen_free _ _ _ _ atFirst.payloadSize atSecond.payloadSize same
  obtain ⟨payload, rests⟩ := encodePayloadField_free.flatMap
    (by rw [Std.ExtTreeMap.length_toList, Std.ExtTreeMap.length_toList, size]) atFirst.payload atSecond.payload same
  have payload := payload_inj payload
  have rawRecord : first.rawRecord = second.rawRecord := by
    cases h : first.rawRecord
    cases h' : second.rawRecord
    simp_all
  cases first
  cases second
  simp_all

theorem canonicalBytes_injective {first second : TrajectoryTrace} (atFirst : ShortTrace first) (atSecond : ShortTrace second)
    (same : canonicalBytes first = canonicalBytes second) : first = second := by
  simp only [canonicalBytes, canonicalHeaderBytes, List.append_assoc] at same
  replace same := List.append_cancel_left same
  obtain ⟨schema, same⟩ := encodeBinding_free _ _ _ _ atFirst.schema atSecond.schema same
  obtain ⟨runId, same⟩ := encodeEvidenced_free putString_free _ _ _ _ atFirst.runId atSecond.runId same
  obtain ⟨adapter, same⟩ := encodeBinding_free _ _ _ _ atFirst.adapter atSecond.adapter same
  obtain ⟨policy, same⟩ := encodeBinding_free _ _ _ _ atFirst.policy atSecond.policy same
  obtain ⟨recordCount, same⟩ := putU64_free _ _ _ _ trivial trivial same
  obtain ⟨digest, same⟩ := putString_free _ _ _ _ atFirst.rawCapture atSecond.rawCapture same
  obtain ⟨count, same⟩ := putLen_free _ _ _ _ atFirst.eventCount atSecond.eventCount same
  rw [← List.append_nil (first.events.flatMap _), ← List.append_nil (second.events.flatMap _)] at same
  obtain ⟨events, -⟩ := canonicalEventBytes_free.flatMap count atFirst.events atSecond.events same
  have rawCapture : first.rawCapture = second.rawCapture := by
    cases h : first.rawCapture
    cases h' : second.rawCapture
    simp_all
  cases first
  cases second
  simp_all

end Legitimacy.Trajectory
