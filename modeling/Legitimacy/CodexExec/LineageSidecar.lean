import Legitimacy.CodexExec.FailedTurn
import Legitimacy.CodexExec.ReceiptJson
import Legitimacy.CodexExec.TextScan

namespace Legitimacy.CodexExec

open Trajectory ExceptRun Json PrefixCode

def lineageMagic : List UInt8 := Utf8.bytes "legitimacy.codex-exec-v0.owner-private-lineage.v1\x00"

def lineageVersion : UInt8 := 1

def reblindingNonceBytes : Nat := 32

def commitmentBytes : Nat := 71

def headerBytes : Nat := lineageMagic.length + 1 + 5 * 8

def maxOwnerPrivateLineageSidecarBytes : Nat :=
  headerBytes + maxCodexJsonlBytes + maxAuthorityReceiptBytes + maxTrustedContextBytes + 2 * commitmentBytes + reblindingNonceBytes

def shapeError : AdapterError := .new .lineageSidecarShape

section

variable (host : AdapterHost)

def privateLineageCommitmentDomain : String := "legitimacy.codex-exec-v0.owner-private-lineage-commitment.v0"

def bindingComponents (binding : ArtifactBinding) : List (List UInt8) :=
  [Utf8.bytes binding.identity, Utf8.bytes binding.version, Utf8.bytes binding.hash]

def InputAuthorityReceipt.publicationAssertions :
    InputAuthorityReceipt → Except AdapterError (String × AssertedParentReceipt × AssertedNonceSource)
  | .sanitizedDerivedCapture receipt =>
    .ok (receipt.assertedOriginEvidenceClass, receipt.assertedParentReceipt, receipt.assertedNonceSource)
  | .syntheticFixture _ => .error (.new .unsupportedAuthority)
  | .processCapture _ => .error (.new .unsupportedAuthority)

def privateLineageCommitment (authority : InputAuthorityReceipt) (context : TrustedAdaptationContext)
    (originalParentReceiptCommitment : String) (publicationParentReblindingNonce : List UInt8) : Except AdapterError String := do
  let (assertedOrigin, assertedParent, assertedDerivedNonceSource) ← authority.publicationAssertions
  .ok (framedSha256 host.sha256 privateLineageCommitmentDomain
    ([Utf8.bytes "version=0", Utf8.bytes originalParentReceiptCommitment, publicationParentReblindingNonce, Utf8.bytes assertedOrigin,
      Utf8.bytes assertedParent.label, Utf8.bytes assertedDerivedNonceSource.label] ++
      [context.downstreamGovernancePolicy, host.adapterBinding, host.schemaBinding, host.sanitizerPolicyBinding,
        host.sanitizerBinding].flatMap bindingComponents))

def hasExpectedPrivateLineageCommitment (authority : InputAuthorityReceipt) (context : TrustedAdaptationContext)
    (originalParentReceiptCommitment : String) (publicationParentReblindingNonce : List UInt8)
    (suppliedPrivateLineageCommitment : String) : Except AdapterError Bool := do
  let expected ← privateLineageCommitment host authority context originalParentReceiptCommitment publicationParentReblindingNonce
  .ok (expected == suppliedPrivateLineageCommitment)

end

section

def decodeCommitment (input : List UInt8) : Except AdapterError String := do
  let value ← (String.fromUTF8? input.toByteArray).elim (.error shapeError) .ok
  let valid := (stripPrefix "sha256:" value).any fun hex => hex.utf8ByteSize == 64 && (Utf8.bytes hex).all isAsciiHexdigit
  if !valid ∨ (Utf8.bytes value).any isUpper then .error shapeError else .ok value

def takeLength (input : List UInt8) (cursor cap : Nat) : Except AdapterError (Nat × Nat) :=
  if input.length < cursor + 8 then .error shapeError
  else
    let length := ofBigEndian (ByteRange.slice ⟨cursor, cursor + 8⟩ input)
    if cap < length then .error (.new .inputTooLarge) else .ok (length, cursor + 8)

def pushLength (length : Nat) : List UInt8 := bigEndian (.ofNat length)

/-- The nonce is an array of 32 bytes. -/
abbrev ReblindingNonce : Type := { bytes : List UInt8 // bytes.length = reblindingNonceBytes }

structure LineageParts where
  childJsonl : List UInt8
  authority : InputAuthorityReceipt
  context : TrustedAdaptationContext
  originalParentReceiptCommitment : String
  publicationParentReblindingNonce : ReblindingNonce
  privateLineageCommitment : String

/-- Where the parts of a frame end. -/
structure LineageRanges where
  childStart : Nat
  childEnd : Nat
  authorityEnd : Nat
  contextEnd : Nat
  originalParentEnd : Nat
  nonceEnd : Nat
  privateLineageEnd : Nat

/-- The sums cannot overflow: each length is below its cap. -/
def decodeRanges (bytes : List UInt8) : Except AdapterError LineageRanges := do
  let (childLen, cursor) ← takeLength bytes (lineageMagic.length + 1) maxCodexJsonlBytes
  let (authorityLen, cursor) ← takeLength bytes cursor maxAuthorityReceiptBytes
  let (contextLen, cursor) ← takeLength bytes cursor maxTrustedContextBytes
  let (originalParentLen, cursor) ← takeLength bytes cursor commitmentBytes
  let (privateLineageLen, cursor) ← takeLength bytes cursor commitmentBytes
  let childStart := cursor
  let childEnd := childStart + childLen
  let authorityEnd := childEnd + authorityLen
  let contextEnd := authorityEnd + contextLen
  let originalParentEnd := contextEnd + originalParentLen
  let nonceEnd := originalParentEnd + reblindingNonceBytes
  let privateLineageEnd := nonceEnd + privateLineageLen
  if privateLineageEnd ≠ bytes.length then .error shapeError
  else .ok ⟨childStart, childEnd, authorityEnd, contextEnd, originalParentEnd, nonceEnd, privateLineageEnd⟩

def InputAuthorityReceipt.isSanitizedDerived : InputAuthorityReceipt → Bool
  | .sanitizedDerivedCapture _ => true
  | .syntheticFixture _ => false
  | .processCapture _ => false

variable (host : AdapterHost)

/-- The parts in the ranges of a frame, with all that is checked of them. -/
def decodeParts (bytes : List UInt8) (ranges : LineageRanges) : Except AdapterError LineageParts := do
  let child := ByteRange.slice ⟨ranges.childStart, ranges.childEnd⟩ bytes
  let authorityText := ByteRange.slice ⟨ranges.childEnd, ranges.authorityEnd⟩ bytes
  let contextText := ByteRange.slice ⟨ranges.authorityEnd, ranges.contextEnd⟩ bytes
  let authority ← decodeAuthority host authorityText
  if !authority.isSanitizedDerived then .error shapeError
  else
    let context ← decodeTrustedContext host contextText
    if (authorityJson authority).compactBytes host.floatText ≠ authorityText ∨
        (contextJson context).compactBytes host.floatText ≠ contextText then .error shapeError
    else
      let originalParent ← decodeCommitment (ByteRange.slice ⟨ranges.contextEnd, ranges.originalParentEnd⟩ bytes)
      if authority.parentCommitment ≠ some originalParent then .error shapeError
      else
        let nonceBytes := ByteRange.slice ⟨ranges.originalParentEnd, ranges.nonceEnd⟩ bytes
        if length : nonceBytes.length ≠ reblindingNonceBytes then .error shapeError
        else if nonceBytes.all (· == 0) then .error shapeError
        else
          let privateLineage ← decodeCommitment (ByteRange.slice ⟨ranges.nonceEnd, ranges.privateLineageEnd⟩ bytes)
          let _ ← adapt host child authority context
          let expected ← hasExpectedPrivateLineageCommitment host authority context originalParent nonceBytes privateLineage
          if !expected then .error shapeError
          else .ok ⟨child, authority, context, originalParent, ⟨nonceBytes, not_not.1 length⟩, privateLineage⟩

/-- The frame of some bytes, with the ranges and the parts that the decoder finds in it. -/
def decodeFrame (bytes : List UInt8) : Except AdapterError (LineageRanges × LineageParts) :=
  if maxOwnerPrivateLineageSidecarBytes < bytes.length then .error (.new .inputTooLarge)
  else if bytes.length < headerBytes ∨ bytes.take lineageMagic.length ≠ lineageMagic ∨ bytes[lineageMagic.length]? ≠ some lineageVersion then
    .error shapeError
  else do
    let ranges ← decodeRanges bytes
    let parts ← decodeParts host bytes ranges
    .ok (ranges, parts)

/-- The header, the five lengths and the parts one behind another. -/
def lineageFrame (child authorityText contextText originalParent nonce privateLineage : List UInt8) : List UInt8 :=
  lineageMagic ++ lineageVersion :: (pushLength child.length ++ (pushLength authorityText.length ++ (pushLength contextText.length ++
    (pushLength originalParent.length ++ (pushLength privateLineage.length ++ (child ++ (authorityText ++ (contextText ++
      (originalParent ++ (nonce ++ privateLineage))))))))))

/-- Owner-private custody for the regeneration of one pair of publications. -/
structure OwnerPrivateLineageSidecar where
  bytes : List UInt8
  childStart : Nat
  childEnd : Nat
  authority : InputAuthorityReceipt
  context : TrustedAdaptationContext

namespace OwnerPrivateLineageSidecar

def decode (bytes : List UInt8) : Except AdapterError OwnerPrivateLineageSidecar := do
  let (ranges, parts) ← decodeFrame host bytes
  .ok ⟨bytes, ranges.childStart, ranges.childEnd, parts.authority, parts.context⟩

def fromBinarySlice (input : List UInt8) : Except AdapterError OwnerPrivateLineageSidecar :=
  if maxOwnerPrivateLineageSidecarBytes < input.length then .error (.new .inputTooLarge) else decode host input

def build (parts : LineageParts) : Except AdapterError OwnerPrivateLineageSidecar :=
  if maxCodexJsonlBytes < parts.childJsonl.length then .error (.new .inputTooLarge)
  else
    let authorityText := (authorityJson parts.authority).compactBytes host.floatText
    let contextText := (contextJson parts.context).compactBytes host.floatText
    let originalParent := Utf8.bytes parts.originalParentReceiptCommitment
    let privateLineage := Utf8.bytes parts.privateLineageCommitment
    let total := headerBytes + parts.childJsonl.length + authorityText.length + contextText.length + originalParent.length +
      reblindingNonceBytes + privateLineage.length
    if maxOwnerPrivateLineageSidecarBytes < total then .error (.new .inputTooLarge)
    else
      decode host (lineageFrame parts.childJsonl authorityText contextText originalParent parts.publicationParentReblindingNonce.val privateLineage)

end OwnerPrivateLineageSidecar

end

section

theorem bytes_of_fromUTF8 {input : List UInt8} {text : String} (decoded : String.fromUTF8? input.toByteArray = some text) :
    input = Utf8.bytes text := by
  unfold String.fromUTF8? at decoded
  split at decoded
  · have same := congrArg String.toByteArray (Option.some.inj decoded)
    rw [Utf8.toByteArray_eq text] at same
    exact List.toByteArray_inj.1 same
  · cases decoded

theorem isHexByte_iff {byte : UInt8} : isHexByte byte = true ↔ isAsciiHexdigit byte = true ∧ isUpper byte = false := by
  simp only [isHexByte, isAsciiHexdigit, isAsciiDigit, isUpper, Bool.or_eq_true, Bool.and_eq_true, decide_eq_true_eq, Bool.and_eq_false_iff,
    decide_eq_false_iff_not, UInt8.le_iff_toNat_le, UInt8.reduceToNat]
  omega

theorem decodeCommitment_eq_ok {input : List UInt8} {value : String} :
    decodeCommitment input = .ok value ↔ input = Utf8.bytes value ∧ isDigest value = true := by
  have front : ∀ byte ∈ Utf8.bytes "sha256:", isUpper byte = false :=
    fun byte member => Bool.eq_false_iff.2 (List.any_eq_false.1 (by decide) byte member)
  constructor
  · intro run
    obtain ⟨text, decoded, run⟩ := bind_eq_ok.1 run
    obtain ⟨checked, run⟩ := guard_eq_ok.1 run
    obtain rfl := Except.ok.inj run
    obtain ⟨valid, lower⟩ := not_or.1 checked
    simp only [Bool.not_eq_true', Bool.not_eq_false, Option.any_eq_true, Bool.and_eq_true, beq_iff_eq, List.all_eq_true] at valid
    simp only [Bool.not_eq_true, List.any_eq_false] at lower
    obtain ⟨hex, stripped, size, digits⟩ := valid
    have shape := stripPrefix_eq_some.1 stripped
    refine ⟨bytes_of_fromUTF8 (elim_eq_ok.1 decoded), isDigest_iff.2 ⟨hex, shape, size, List.all_eq_true.2 fun byte member => ?_⟩⟩
    have inText : byte ∈ Utf8.bytes text := by
      rw [shape, Utf8.bytes_append]
      exact List.mem_append_right _ member
    exact isHexByte_iff.2 ⟨digits byte member, by simpa using lower byte inText⟩
  · rintro ⟨rfl, digest⟩
    obtain ⟨hex, rfl, size, digits⟩ := isDigest_iff.1 digest
    refine bind_eq_ok.2 ⟨_, elim_eq_ok.2 (Utf8.fromUTF8_bytes _), guard_eq_ok.2 ⟨?_, rfl⟩⟩
    rintro (invalid | upper)
    · have all : (Utf8.bytes hex).all isAsciiHexdigit = true :=
        List.all_eq_true.2 fun byte member => (isHexByte_iff.1 (List.all_eq_true.1 digits byte member)).1
      simp [stripPrefix_eq_some.2 rfl, size, all] at invalid
    · obtain ⟨byte, member, capital⟩ := List.any_eq_true.1 upper
      rw [Utf8.bytes_append, List.mem_append] at member
      have small : isUpper byte = false := member.elim (front byte) fun inHex => (isHexByte_iff.1 (List.all_eq_true.1 digits byte inHex)).2
      rw [small] at capital
      cases capital

variable {bytes part rest : List UInt8} {start cursor cap length next : Nat}

theorem length_slice {stop : Nat} (within : stop ≤ bytes.length) : (ByteRange.slice ⟨start, stop⟩ bytes).length = stop - start := by
  show ((bytes.drop start).take (stop - start)).length = stop - start
  rw [List.length_take, List.length_drop]
  omega

theorem drop_slice {stop : Nat} (order : start ≤ stop) : bytes.drop start = ByteRange.slice ⟨start, stop⟩ bytes ++ bytes.drop stop := by
  obtain ⟨width, rfl⟩ := Nat.exists_eq_add_of_le order
  rw [ByteRange.slice, Nat.add_sub_cancel_left, ← List.drop_drop, List.take_append_drop]

theorem slice_of_drop (found : bytes.drop start = part ++ rest) :
    ByteRange.slice ⟨start, start + part.length⟩ bytes = part ∧ bytes.drop (start + part.length) = rest := by
  constructor
  · rw [ByteRange.slice, found, Nat.add_sub_cancel_left, List.take_left]
  · rw [← List.drop_drop, found, List.drop_left]

theorem takeLength_of_drop (found : bytes.drop cursor = pushLength length ++ rest) (below : length < 2 ^ 64) (within : length ≤ cap) :
    takeLength bytes cursor cap = .ok (length, cursor + 8) ∧ bytes.drop (cursor + 8) = rest := by
  have word : (pushLength length).length = 8 := rfl
  have room : cursor + 8 ≤ bytes.length := by
    have count := congrArg List.length found
    rw [List.length_drop, List.length_append, word] at count
    omega
  obtain ⟨taken, dropped⟩ := slice_of_drop found
  rw [word] at taken dropped
  have value : ofBigEndian (pushLength length) = length := by
    rw [pushLength, ofBigEndian_bigEndian, UInt64.toNat_ofNat_of_lt' below]
  rw [takeLength, if_neg (Nat.not_lt.2 room), taken, value, if_neg (Nat.not_lt.2 within)]
  exact ⟨rfl, dropped⟩

theorem takeLength_eq_ok (run : takeLength bytes cursor cap = .ok (length, next)) :
    next = cursor + 8 ∧ length ≤ cap ∧ bytes.drop cursor = pushLength length ++ bytes.drop next := by
  obtain ⟨room, run⟩ := guard_eq_ok.1 run
  obtain ⟨within, run⟩ := guard_eq_ok.1 run
  obtain ⟨rfl, rfl⟩ := Prod.mk.inj (Except.ok.inj run)
  have word : (ByteRange.slice ⟨cursor, cursor + 8⟩ bytes).length = 8 := by
    rw [length_slice (Nat.not_lt.1 room), Nat.add_sub_cancel_left]
  refine ⟨rfl, Nat.not_lt.1 within, ?_⟩
  rw [pushLength, bigEndian_ofBigEndian word]
  exact drop_slice (Nat.le_add_right cursor 8)

def rangesOf (child authorityText contextText originalParent nonce privateLineage : Nat) : LineageRanges where
  childStart := headerBytes
  childEnd := headerBytes + child
  authorityEnd := headerBytes + child + authorityText
  contextEnd := headerBytes + child + authorityText + contextText
  originalParentEnd := headerBytes + child + authorityText + contextText + originalParent
  nonceEnd := headerBytes + child + authorityText + contextText + originalParent + nonce
  privateLineageEnd := headerBytes + child + authorityText + contextText + originalParent + nonce + privateLineage

variable {child authorityText contextText originalParent nonce privateLineage : List UInt8}

theorem length_lineageFrame : (lineageFrame child authorityText contextText originalParent nonce privateLineage).length =
    headerBytes + child.length + authorityText.length + contextText.length + originalParent.length + nonce.length + privateLineage.length := by
  have word (length : Nat) : (pushLength length).length = 8 := rfl
  simp only [lineageFrame, headerBytes, List.length_append, List.length_cons, word]
  omega

theorem drop_lineageFrame : (lineageFrame child authorityText contextText originalParent nonce privateLineage).drop (lineageMagic.length + 1) =
    pushLength child.length ++ (pushLength authorityText.length ++ (pushLength contextText.length ++ (pushLength originalParent.length ++
      (pushLength privateLineage.length ++ (child ++ (authorityText ++ (contextText ++ (originalParent ++ (nonce ++ privateLineage))))))))) := by
  rw [lineageFrame, ← List.drop_drop, List.drop_left]
  rfl

structure FrameFits (child authorityText contextText originalParent nonce privateLineage : List UInt8) : Prop where
  child : child.length ≤ maxCodexJsonlBytes
  authority : authorityText.length ≤ maxAuthorityReceiptBytes
  context : contextText.length ≤ maxTrustedContextBytes
  originalParent : originalParent.length ≤ commitmentBytes
  nonce : nonce.length = reblindingNonceBytes
  privateLineage : privateLineage.length ≤ commitmentBytes

theorem decodeRanges_frame (fits : FrameFits child authorityText contextText originalParent nonce privateLineage) :
    decodeRanges (lineageFrame child authorityText contextText originalParent nonce privateLineage) =
      .ok (rangesOf child.length authorityText.length contextText.length originalParent.length nonce.length privateLineage.length) := by
  have small {length cap : Nat} (within : length ≤ cap) (bound : cap < 2 ^ 64) : length < 2 ^ 64 := Nat.lt_of_le_of_lt within bound
  obtain ⟨atChild, after⟩ := takeLength_of_drop drop_lineageFrame (small fits.child (by decide)) fits.child
  obtain ⟨atAuthority, after⟩ := takeLength_of_drop after (small fits.authority (by decide)) fits.authority
  obtain ⟨atContext, after⟩ := takeLength_of_drop after (small fits.context (by decide)) fits.context
  obtain ⟨atParent, after⟩ := takeLength_of_drop after (small fits.originalParent (by decide)) fits.originalParent
  obtain ⟨atLineage, after⟩ := takeLength_of_drop after (small fits.privateLineage (by decide)) fits.privateLineage
  refine bind_eq_ok.2 ⟨_, atChild, bind_eq_ok.2 ⟨_, atAuthority, bind_eq_ok.2 ⟨_, atContext, bind_eq_ok.2 ⟨_, atParent, bind_eq_ok.2 ⟨_, atLineage, ?_⟩⟩⟩⟩⟩
  have total := @length_lineageFrame child authorityText contextText originalParent nonce privateLineage
  rw [fits.nonce] at total
  rw [fits.nonce]
  refine guard_eq_ok.2 ⟨?_, rfl⟩
  rw [total]
  exact not_not.2 rfl

theorem exists_frame {ranges : LineageRanges} (magic : bytes.take lineageMagic.length = lineageMagic)
    (version : bytes[lineageMagic.length]? = some lineageVersion) (run : decodeRanges bytes = .ok ranges) :
    ∃ child authorityText contextText originalParent nonce privateLineage,
      FrameFits child authorityText contextText originalParent nonce privateLineage ∧
      bytes = lineageFrame child authorityText contextText originalParent nonce privateLineage ∧
      ranges = rangesOf child.length authorityText.length contextText.length originalParent.length nonce.length privateLineage.length := by
  obtain ⟨⟨childLen, _⟩, atChild, run⟩ := bind_eq_ok.1 run
  obtain ⟨rfl, childFits, first⟩ := takeLength_eq_ok atChild
  obtain ⟨⟨authorityLen, _⟩, atAuthority, run⟩ := bind_eq_ok.1 run
  obtain ⟨rfl, authorityFits, second⟩ := takeLength_eq_ok atAuthority
  obtain ⟨⟨contextLen, _⟩, atContext, run⟩ := bind_eq_ok.1 run
  obtain ⟨rfl, contextFits, third⟩ := takeLength_eq_ok atContext
  obtain ⟨⟨originalParentLen, _⟩, atParent, run⟩ := bind_eq_ok.1 run
  obtain ⟨rfl, parentFits, fourth⟩ := takeLength_eq_ok atParent
  obtain ⟨⟨privateLineageLen, _⟩, atLineage, run⟩ := bind_eq_ok.1 run
  obtain ⟨rfl, lineageFits, fifth⟩ := takeLength_eq_ok atLineage
  obtain ⟨total, run⟩ := guard_eq_ok.1 run
  obtain rfl := Except.ok.inj run
  have whole := not_not.1 total
  have header : lineageMagic.length + 1 + 8 + 8 + 8 + 8 + 8 = headerBytes := rfl
  rw [header] at whole fifth
  have width : reblindingNonceBytes = 32 := rfl
  -- the parts are the slices between the ends, in their order
  have child := @length_slice bytes headerBytes (headerBytes + childLen) (by omega)
  have authority := @length_slice bytes (headerBytes + childLen) (headerBytes + childLen + authorityLen) (by omega)
  have context := @length_slice bytes (headerBytes + childLen + authorityLen) (headerBytes + childLen + authorityLen + contextLen) (by omega)
  have parent := @length_slice bytes (headerBytes + childLen + authorityLen + contextLen)
    (headerBytes + childLen + authorityLen + contextLen + originalParentLen) (by omega)
  have nonce := @length_slice bytes (headerBytes + childLen + authorityLen + contextLen + originalParentLen)
    (headerBytes + childLen + authorityLen + contextLen + originalParentLen + reblindingNonceBytes) (by omega)
  have lineage := @length_slice bytes (headerBytes + childLen + authorityLen + contextLen + originalParentLen + reblindingNonceBytes)
    (headerBytes + childLen + authorityLen + contextLen + originalParentLen + reblindingNonceBytes + privateLineageLen) (by omega)
  rw [Nat.add_sub_cancel_left] at child authority context parent nonce lineage
  refine ⟨_, _, _, _, _, _, ⟨child.trans_le childFits, authority.trans_le authorityFits, context.trans_le contextFits, parent.trans_le parentFits,
    nonce, lineage.trans_le lineageFits⟩, ?_, ?_⟩
  · have behind : bytes.drop lineageMagic.length = lineageVersion :: bytes.drop (lineageMagic.length + 1) := by
      obtain ⟨inside, same⟩ := List.getElem?_eq_some_iff.1 version
      rw [List.drop_eq_getElem_cons inside, same]
    have last : bytes.drop (headerBytes + childLen + authorityLen + contextLen + originalParentLen + reblindingNonceBytes + privateLineageLen) = [] :=
      List.drop_eq_nil_of_le (by omega)
    rw [lineageFrame, child, authority, context, parent, lineage]
    conv_lhs => rw [← List.take_append_drop lineageMagic.length bytes, magic, behind, first, second, third, fourth, fifth]
    rw [drop_slice (by omega : headerBytes ≤ headerBytes + childLen),
      drop_slice (by omega : headerBytes + childLen ≤ headerBytes + childLen + authorityLen),
      drop_slice (by omega : headerBytes + childLen + authorityLen ≤ headerBytes + childLen + authorityLen + contextLen),
      drop_slice (by omega : headerBytes + childLen + authorityLen + contextLen ≤
        headerBytes + childLen + authorityLen + contextLen + originalParentLen),
      drop_slice (by omega : headerBytes + childLen + authorityLen + contextLen + originalParentLen ≤
        headerBytes + childLen + authorityLen + contextLen + originalParentLen + reblindingNonceBytes),
      drop_slice (by omega : headerBytes + childLen + authorityLen + contextLen + originalParentLen + reblindingNonceBytes ≤
        headerBytes + childLen + authorityLen + contextLen + originalParentLen + reblindingNonceBytes + privateLineageLen), last, List.append_nil]
  · rw [child, authority, context, parent, nonce, lineage]
    rfl

theorem length_pushLength (first second : Nat) : (pushLength first).length = (pushLength second).length := rfl

theorem pushLength_injective {first second : Nat} (atFirst : first < 2 ^ 64) (atSecond : second < 2 ^ 64)
    (same : pushLength first = pushLength second) : first = second := by
  have words := congrArg UInt64.toNat (bigEndian_injective same)
  rwa [UInt64.toNat_ofNat_of_lt' atFirst, UInt64.toNat_ofNat_of_lt' atSecond] at words

theorem lineageFrame_injective {child' authorityText' contextText' originalParent' nonce' privateLineage' : List UInt8}
    (same : lineageFrame child authorityText contextText originalParent nonce privateLineage =
      lineageFrame child' authorityText' contextText' originalParent' nonce' privateLineage')
    (small : (lineageFrame child authorityText contextText originalParent nonce privateLineage).length < 2 ^ 64)
    (nonces : nonce.length = nonce'.length) : child = child' ∧ authorityText = authorityText' ∧ contextText = contextText' ∧
      originalParent = originalParent' ∧ nonce = nonce' ∧ privateLineage = privateLineage' := by
  have total := small
  have total' := same ▸ small
  rw [length_lineageFrame] at total total'
  have behind := congrArg (List.drop (lineageMagic.length + 1)) same
  rw [drop_lineageFrame, drop_lineageFrame] at behind
  obtain ⟨childWord, behind⟩ := List.append_inj behind (length_pushLength _ _)
  obtain ⟨authorityWord, behind⟩ := List.append_inj behind (length_pushLength _ _)
  obtain ⟨contextWord, behind⟩ := List.append_inj behind (length_pushLength _ _)
  obtain ⟨parentWord, behind⟩ := List.append_inj behind (length_pushLength _ _)
  obtain ⟨lineageWord, behind⟩ := List.append_inj behind (length_pushLength _ _)
  obtain ⟨sameChild, behind⟩ := List.append_inj behind (pushLength_injective (by omega) (by omega) childWord)
  obtain ⟨sameAuthority, behind⟩ := List.append_inj behind (pushLength_injective (by omega) (by omega) authorityWord)
  obtain ⟨sameContext, behind⟩ := List.append_inj behind (pushLength_injective (by omega) (by omega) contextWord)
  obtain ⟨sameParent, behind⟩ := List.append_inj behind (pushLength_injective (by omega) (by omega) parentWord)
  obtain ⟨sameNonce, sameLineage⟩ := List.append_inj behind nonces
  exact ⟨sameChild, sameAuthority, sameContext, sameParent, sameNonce, sameLineage⟩

theorem slices_frame {bytes : List UInt8} {ranges : LineageRanges}
    (same : bytes = lineageFrame child authorityText contextText originalParent nonce privateLineage)
    (lengths : ranges = rangesOf child.length authorityText.length contextText.length originalParent.length nonce.length privateLineage.length) :
    ByteRange.slice ⟨ranges.childStart, ranges.childEnd⟩ bytes = child ∧
      ByteRange.slice ⟨ranges.childEnd, ranges.authorityEnd⟩ bytes = authorityText ∧
      ByteRange.slice ⟨ranges.authorityEnd, ranges.contextEnd⟩ bytes = contextText ∧
      ByteRange.slice ⟨ranges.contextEnd, ranges.originalParentEnd⟩ bytes = originalParent ∧
      ByteRange.slice ⟨ranges.originalParentEnd, ranges.nonceEnd⟩ bytes = nonce ∧
      ByteRange.slice ⟨ranges.nonceEnd, ranges.privateLineageEnd⟩ bytes = privateLineage := by
  subst same
  subst lengths
  have behind : (lineageFrame child authorityText contextText originalParent nonce privateLineage).drop headerBytes =
      child ++ (authorityText ++ (contextText ++ (originalParent ++ (nonce ++ (privateLineage ++ []))))) := by
    rw [headerBytes, ← List.drop_drop, drop_lineageFrame, List.append_nil]
    rfl
  obtain ⟨atChild, behind⟩ := slice_of_drop behind
  obtain ⟨atAuthority, behind⟩ := slice_of_drop behind
  obtain ⟨atContext, behind⟩ := slice_of_drop behind
  obtain ⟨atParent, behind⟩ := slice_of_drop behind
  obtain ⟨atNonce, behind⟩ := slice_of_drop behind
  exact ⟨atChild, atAuthority, atContext, atParent, atNonce, (slice_of_drop behind).1⟩

end

section

namespace LineageParts

variable (host : AdapterHost) (parts : LineageParts)

def authorityText : List UInt8 := (authorityJson parts.authority).compactBytes host.floatText

def contextText : List UInt8 := (contextJson parts.context).compactBytes host.floatText

def frame : List UInt8 :=
  lineageFrame parts.childJsonl (parts.authorityText host) (parts.contextText host) (Utf8.bytes parts.originalParentReceiptCommitment)
    parts.publicationParentReblindingNonce.val (Utf8.bytes parts.privateLineageCommitment)

def ranges : LineageRanges :=
  rangesOf parts.childJsonl.length (parts.authorityText host).length (parts.contextText host).length
    (Utf8.bytes parts.originalParentReceiptCommitment).length parts.publicationParentReblindingNonce.val.length
    (Utf8.bytes parts.privateLineageCommitment).length

/-- The receipt, the context and the commitments belong to one derived capture. -/
structure Linked : Prop where
  parent : parts.authority.parentCommitment = some parts.originalParentReceiptCommitment
  adapts : ∃ adapted, adapt host parts.childJsonl parts.authority parts.context = .ok adapted
  lineage : CodexExec.privateLineageCommitment host parts.authority parts.context parts.originalParentReceiptCommitment
    parts.publicationParentReblindingNonce.val = .ok parts.privateLineageCommitment

/-- What the decoder checks of the parts besides their encoding. -/
structure Consistent : Prop extends Linked host parts where
  nonce : ∃ byte ∈ parts.publicationParentReblindingNonce.val, byte ≠ 0

end LineageParts

variable {host : AdapterHost} {parts : LineageParts}

theorem LineageParts.Linked.receipt (linked : parts.Linked host) :
    ∃ receipt, parts.authority = .sanitizedDerivedCapture receipt ∧ receipt.Valid host := by
  obtain ⟨adapted, adapts⟩ := linked.adapts
  have valid := (authorize_eq_ok.1 (adapt_eq_ok.1 adapts).authorized).1
  have parent := linked.parent
  cases form : parts.authority with
  | sanitizedDerivedCapture receipt =>
    rw [form] at valid
    exact ⟨receipt, rfl, validateDerived_eq_ok.1 valid⟩
  | syntheticFixture receipt =>
    rw [form] at parent
    cases parent
  | processCapture receipt =>
    rw [form] at parent
    cases parent

theorem LineageParts.Linked.commitments (linked : parts.Linked host) :
    isDigest parts.originalParentReceiptCommitment = true ∧ isDigest parts.privateLineageCommitment = true := by
  obtain ⟨receipt, same, valid⟩ := linked.receipt
  have parent := linked.parent
  have lineage := linked.lineage
  rw [same] at parent lineage
  constructor
  · exact Option.some.inj parent ▸ valid.digests _ List.mem_cons_self
  · exact Except.ok.inj lineage ▸ isDigest_framedSha256 _ _ _

theorem LineageParts.Linked.fits (linked : parts.Linked host) :
    FrameFits parts.childJsonl (parts.authorityText host) (parts.contextText host) (Utf8.bytes parts.originalParentReceiptCommitment)
      parts.publicationParentReblindingNonce.val (Utf8.bytes parts.privateLineageCommitment) := by
  obtain ⟨adapted, adapts⟩ := linked.adapts
  obtain ⟨receipt, same, valid⟩ := linked.receipt
  obtain ⟨parent, lineage⟩ := linked.commitments
  refine ⟨(parseOwned_eq_ok.1 (adapt_eq_ok.1 adapts).framed).1.size, ?_, ?_, ?_, parts.publicationParentReblindingNonce.property, ?_⟩
  · rw [authorityText, same, length_compactBytes]
    exact (derivedJson_size_le valid).trans (by decide)
  · rw [contextText, length_compactBytes]
    exact (contextJson_size_le _).trans (by decide)
  · rw [Utf8.length_bytes, (isDigest_plain parent).1]
    exact Nat.le_refl _
  · rw [Utf8.length_bytes, (isDigest_plain lineage).1]
    exact Nat.le_refl _

section

variable (faithful : Faithful host.floatText host.reader.parse)

include faithful

theorem decodeParts_eq_ok {child authorityText contextText originalParent nonce privateLineage : List UInt8}
    {bytes : List UInt8} {ranges : LineageRanges} (fits : FrameFits child authorityText contextText originalParent nonce privateLineage)
    (same : bytes = lineageFrame child authorityText contextText originalParent nonce privateLineage)
    (lengths : ranges = rangesOf child.length authorityText.length contextText.length originalParent.length nonce.length privateLineage.length) :
    decodeParts host bytes ranges = .ok parts ↔ parts.Consistent host ∧ parts.childJsonl = child ∧ parts.authorityText host = authorityText ∧
      parts.contextText host = contextText ∧ Utf8.bytes parts.originalParentReceiptCommitment = originalParent ∧
      parts.publicationParentReblindingNonce.val = nonce ∧ Utf8.bytes parts.privateLineageCommitment = privateLineage := by
  obtain ⟨atChild, atAuthority, atContext, atParent, atNonce, atLineage⟩ := slices_frame same lengths
  rw [decodeParts]
  simp only [atChild, atAuthority, atContext, atParent, atNonce, atLineage]
  constructor
  · intro run
    obtain ⟨authority, readAuthority, run⟩ := bind_eq_ok.1 run
    obtain ⟨sanitized, run⟩ := guard_eq_ok.1 run
    obtain ⟨context, readContext, run⟩ := bind_eq_ok.1 run
    obtain ⟨canonical, run⟩ := guard_eq_ok.1 run
    obtain ⟨original, readParent, run⟩ := bind_eq_ok.1 run
    obtain ⟨parent, run⟩ := guard_eq_ok.1 run
    rw [dif_neg (not_not.2 fits.nonce)] at run
    obtain ⟨zeros, run⟩ := guard_eq_ok.1 run
    obtain ⟨supplied, readLineage, run⟩ := bind_eq_ok.1 run
    obtain ⟨adapted, adapts, run⟩ := bind_eq_ok.1 run
    obtain ⟨matched, expected, run⟩ := bind_eq_ok.1 run
    obtain ⟨agrees, run⟩ := guard_eq_ok.1 run
    obtain rfl := Except.ok.inj run
    obtain ⟨canonicalAuthority, canonicalContext⟩ := not_or.1 canonical
    obtain ⟨rfl, -⟩ := decodeCommitment_eq_ok.1 readParent
    obtain ⟨rfl, -⟩ := decodeCommitment_eq_ok.1 readLineage
    obtain ⟨computed, commits, expected⟩ := bind_eq_ok.1 expected
    obtain rfl := Except.ok.inj expected
    obtain rfl : computed = supplied := by simpa using agrees
    refine ⟨⟨⟨not_not.1 parent, ⟨adapted, adapts⟩, commits⟩, ?_⟩, rfl, not_not.1 canonicalAuthority, not_not.1 canonicalContext,
      rfl, rfl, rfl⟩
    simpa using zeros
  · rintro ⟨consistent, rfl, rfl, rfl, rfl, rfl, rfl⟩
    obtain ⟨adapted, adapts⟩ := consistent.adapts
    obtain ⟨receipt, authority, valid⟩ := consistent.receipt
    obtain ⟨parent, lineage⟩ := consistent.commitments
    have read : decodeAuthority host (parts.authorityText host) = .ok parts.authority := by
      rw [LineageParts.authorityText, authority]
      exact decodeAuthority_json faithful valid
    have sanitized : parts.authority.isSanitizedDerived = true := by rw [authority]; rfl
    have nonzero : ¬parts.publicationParentReblindingNonce.val.all (· == 0) = true := by simpa using consistent.nonce
    have matched : hasExpectedPrivateLineageCommitment host parts.authority parts.context parts.originalParentReceiptCommitment
        parts.publicationParentReblindingNonce.val parts.privateLineageCommitment = .ok true :=
      bind_eq_ok.2 ⟨_, consistent.lineage, by simp⟩
    refine bind_eq_ok.2 ⟨_, read, guard_eq_ok.2 ⟨by simp [sanitized], bind_eq_ok.2 ⟨_, decodeTrustedContext_json faithful _, ?_⟩⟩⟩
    refine guard_eq_ok.2 ⟨not_or.2 ⟨not_not.2 rfl, not_not.2 rfl⟩, bind_eq_ok.2 ⟨_, decodeCommitment_eq_ok.2 ⟨rfl, parent⟩, ?_⟩⟩
    refine guard_eq_ok.2 ⟨not_not.2 consistent.parent, ?_⟩
    rw [dif_neg (not_not.2 fits.nonce), if_neg nonzero]
    refine bind_eq_ok.2 ⟨_, decodeCommitment_eq_ok.2 ⟨rfl, lineage⟩, bind_eq_ok.2 ⟨adapted, adapts, bind_eq_ok.2 ⟨true, matched, ?_⟩⟩⟩
    exact guard_eq_ok.2 ⟨by simp, rfl⟩

/-- The decoder accepts the frames of consistent parts and nothing else. -/
theorem decodeFrame_eq_ok {bytes : List UInt8} {ranges : LineageRanges} :
    decodeFrame host bytes = .ok (ranges, parts) ↔ parts.Consistent host ∧ bytes = parts.frame host ∧ ranges = parts.ranges host := by
  constructor
  · intro run
    obtain ⟨-, run⟩ := guard_eq_ok.1 run
    obtain ⟨header, run⟩ := guard_eq_ok.1 run
    obtain ⟨-, header⟩ := not_or.1 header
    obtain ⟨magic, version⟩ := not_or.1 header
    obtain ⟨_, found, run⟩ := bind_eq_ok.1 run
    obtain ⟨_, read, run⟩ := bind_eq_ok.1 run
    obtain ⟨rfl, rfl⟩ := Prod.mk.inj (Except.ok.inj run)
    obtain ⟨child, authorityText, contextText, originalParent, nonce, privateLineage, fits, same, lengths⟩ :=
      exists_frame (not_not.1 magic) (not_not.1 version) found
    obtain ⟨consistent, rfl, rfl, rfl, rfl, rfl, rfl⟩ := (decodeParts_eq_ok faithful fits same lengths).1 read
    exact ⟨consistent, same, lengths⟩
  · rintro ⟨consistent, rfl, rfl⟩
    have fits := consistent.fits
    have total : (parts.frame host).length = _ := length_lineageFrame
    have small : (parts.frame host).length ≤ maxOwnerPrivateLineageSidecarBytes := by
      rw [total, maxOwnerPrivateLineageSidecarBytes]
      have child := fits.child
      have authority := fits.authority
      have context := fits.context
      have parent := fits.originalParent
      have nonce := fits.nonce
      have lineage := fits.privateLineage
      omega
    refine guard_eq_ok.2 ⟨Nat.not_lt.2 small, guard_eq_ok.2 ⟨?_, ?_⟩⟩
    · rintro (short | magic | version)
      · rw [total] at short
        omega
      · exact magic (by rw [LineageParts.frame, lineageFrame, List.take_left])
      · exact version (by rw [LineageParts.frame, lineageFrame, List.getElem?_append_right (Nat.le_refl _), Nat.sub_self]; rfl)
    · exact bind_eq_ok.2 ⟨_, decodeRanges_frame fits, bind_eq_ok.2 ⟨parts, (decodeParts_eq_ok faithful fits rfl rfl).2
        ⟨consistent, rfl, rfl, rfl, rfl, rfl, rfl⟩, rfl⟩⟩

theorem decode_eq_ok {bytes : List UInt8} {sidecar : OwnerPrivateLineageSidecar} :
    OwnerPrivateLineageSidecar.decode host bytes = .ok sidecar ↔ ∃ parts : LineageParts, parts.Consistent host ∧ bytes = parts.frame host ∧
      sidecar = ⟨bytes, (parts.ranges host).childStart, (parts.ranges host).childEnd, parts.authority, parts.context⟩ := by
  constructor
  · intro run
    obtain ⟨⟨ranges, parts⟩, read, run⟩ := bind_eq_ok.1 run
    obtain rfl := Except.ok.inj run
    obtain ⟨consistent, same, rfl⟩ := (decodeFrame_eq_ok faithful).1 read
    exact ⟨parts, consistent, same, rfl⟩
  · rintro ⟨parts, consistent, same, rfl⟩
    exact bind_eq_ok.2 ⟨_, (decodeFrame_eq_ok faithful).2 ⟨consistent, same, rfl⟩, rfl⟩

theorem frame_injective {other : LineageParts}
    (small : (parts.frame host).length < 2 ^ 64) (same : parts.frame host = other.frame host) : parts = other := by
  obtain ⟨child, authority, context, parent, nonce, lineage⟩ := lineageFrame_injective same small
    (parts.publicationParentReblindingNonce.property.trans other.publicationParentReblindingNonce.property.symm)
  have sameAuthority := authorityText_injective faithful authority
  have sameContext := contextText_injective faithful context
  have sameParent := Utf8.bytes_injective parent
  have sameNonce := Subtype.ext nonce
  have sameLineage := Utf8.bytes_injective lineage
  cases parts
  cases other
  simp only [LineageParts.mk.injEq]
  exact ⟨child, sameAuthority, sameContext, sameParent, sameNonce, sameLineage⟩

theorem build_eq_ok {sidecar : OwnerPrivateLineageSidecar} :
    OwnerPrivateLineageSidecar.build host parts = .ok sidecar ↔ parts.Consistent host ∧
      sidecar = ⟨parts.frame host, (parts.ranges host).childStart, (parts.ranges host).childEnd, parts.authority, parts.context⟩ := by
  have bound : maxOwnerPrivateLineageSidecarBytes < 2 ^ 64 := by decide
  have total : (parts.frame host).length = _ := length_lineageFrame
  rw [parts.publicationParentReblindingNonce.property] at total
  constructor
  · intro run
    obtain ⟨-, run⟩ := guard_eq_ok.1 run
    obtain ⟨within, run⟩ := guard_eq_ok.1 run
    obtain ⟨other, consistent, same, rfl⟩ := (decode_eq_ok faithful).1 run
    have small : (parts.frame host).length < 2 ^ 64 := by
      rw [total]
      exact Nat.lt_of_le_of_lt (Nat.not_lt.1 within) bound
    obtain rfl := frame_injective faithful small same
    exact ⟨consistent, rfl⟩
  · rintro ⟨consistent, rfl⟩
    have fits := consistent.fits
    have run := (decode_eq_ok faithful).2 ⟨parts, consistent, rfl, rfl⟩
    have accepted := (decodeFrame_eq_ok faithful).2 ⟨consistent, rfl, rfl⟩
    have within := Nat.not_lt.1 (guard_eq_ok.1 accepted).1
    rw [total] at within
    exact guard_eq_ok.2 ⟨Nat.not_lt.2 fits.child, guard_eq_ok.2 ⟨Nat.not_lt.2 within, run⟩⟩

end

/-- The codec of the sidecar. Everything that the decoder accepts is what the builder makes of the parts that are found in it. The builder
makes a sidecar exactly of the parts that the decoder's checks pass, and the decoder finds these parts in it. -/
theorem lineage_sidecar_codec (faithful : Faithful host.floatText host.reader.parse) :
    (∀ bytes sidecar, OwnerPrivateLineageSidecar.fromBinarySlice host bytes = .ok sidecar →
      ∃ ranges parts, decodeFrame host bytes = .ok (ranges, parts) ∧ OwnerPrivateLineageSidecar.build host parts = .ok sidecar ∧
        sidecar.bytes = bytes) ∧
    ∀ parts : LineageParts, ((∃ sidecar, OwnerPrivateLineageSidecar.build host parts = .ok sidecar) ↔ parts.Consistent host) ∧
      ∀ sidecar, OwnerPrivateLineageSidecar.build host parts = .ok sidecar →
        OwnerPrivateLineageSidecar.fromBinarySlice host sidecar.bytes = .ok sidecar ∧
        decodeFrame host sidecar.bytes = .ok (parts.ranges host, parts) := by
  constructor
  · intro bytes sidecar run
    obtain ⟨-, run⟩ := guard_eq_ok.1 run
    obtain ⟨parts, consistent, same, rfl⟩ := (decode_eq_ok faithful).1 run
    refine ⟨_, parts, (decodeFrame_eq_ok faithful).2 ⟨consistent, same, rfl⟩, (build_eq_ok faithful).2 ⟨consistent, ?_⟩, rfl⟩
    rw [same]
  · intro parts
    refine ⟨⟨fun ⟨sidecar, built⟩ => ((build_eq_ok faithful).1 built).1, fun consistent => ⟨_, (build_eq_ok faithful).2 ⟨consistent, rfl⟩⟩⟩, ?_⟩
    intro sidecar built
    obtain ⟨consistent, rfl⟩ := (build_eq_ok faithful).1 built
    have accepted := (decodeFrame_eq_ok faithful).2 ⟨consistent, rfl, rfl⟩
    exact ⟨guard_eq_ok.2 ⟨(guard_eq_ok.1 accepted).1, (decode_eq_ok faithful).2 ⟨parts, consistent, rfl, rfl⟩⟩, accepted⟩

def derivedParts (nonce : ReblindingNonce) : LineageParts :=
  let jsonl := failedJsonl exampleAdapter exampleThread
  let parent := artifactDigest exampleAdapter.sha256 []
  let inputs : DerivedReceiptInputs := ⟨"synthetic-fixture", .syntheticFixtureFixedSyntheticTest, parent, 0, parent, ⟨0, parent⟩,
    exampleAdapter.sanitizerPolicyBinding, exampleAdapter.sanitizerBinding⟩
  let authority := .sanitizedDerivedCapture (.new exampleAdapter inputs ⟨jsonl, rangesFrom 0 (plainRecords jsonl)⟩ fixedNonce)
  let context := .expecting exampleAdapter authority examplePolicy_valid examplePolicy_unreserved
  ⟨jsonl, authority, context, parent, nonce,
    ((privateLineageCommitment exampleAdapter authority context parent nonce.val).toOption).getD ""⟩

theorem derivedParts_linked (nonce : ReblindingNonce) : (derivedParts nonce).Linked exampleAdapter := by
  have faithful : Faithful exampleAdapter.floatText exampleAdapter.reader.parse := exampleHost_faithful
  obtain ⟨capture, parsed, -⟩ := exampleTurn.framed
  obtain ⟨-, rfl⟩ := parseOwned_eq_ok.1 parsed
  have digest : isDigest (artifactDigest exampleAdapter.sha256 []) = true := isDigest_framedSha256 _ _ _
  have authorized := @new_authorizes exampleAdapter _ fixedNonce (derivedParts nonce).context _
    ⟨rfl, rfl, rfl, rfl, by simp [SanitizedDerivedCaptureReceipt.new, digest, fullJsonlDigest, rawCaptureSeal, isDigest_framedSha256], rfl, rfl,
      validateNonce_encode fixedNonce.length nofun⟩ rfl
  exact ⟨rfl, ⟨_, failedTurn_adapts faithful exampleTurn parsed authorized rfl⟩, rfl⟩

/-- A nonce of zeros is within all limits of the frame, but the builder refuses it. -/
theorem zero_nonce_refused : ¬∀ parts : LineageParts,
    FrameFits parts.childJsonl (parts.authorityText exampleAdapter) (parts.contextText exampleAdapter)
      (Utf8.bytes parts.originalParentReceiptCommitment) parts.publicationParentReblindingNonce.val (Utf8.bytes parts.privateLineageCommitment) →
    ∃ sidecar, OwnerPrivateLineageSidecar.build exampleAdapter parts = .ok sidecar ∧
      ∃ ranges, decodeFrame exampleAdapter sidecar.bytes = .ok (ranges, parts) := by
  intro total
  have faithful : Faithful exampleAdapter.floatText exampleAdapter.reader.parse := exampleHost_faithful
  obtain ⟨sidecar, built, -⟩ := total (derivedParts ⟨List.replicate 32 0, rfl⟩) (derivedParts_linked _).fits
  obtain ⟨byte, member, nonzero⟩ := ((build_eq_ok faithful).1 built).1.nonce
  exact nonzero (List.eq_of_mem_replicate member)

theorem lineage_sidecar_codec_derived : ∃ sidecar,
    OwnerPrivateLineageSidecar.build exampleAdapter (derivedParts ⟨List.replicate 32 7, rfl⟩) = .ok sidecar ∧
      OwnerPrivateLineageSidecar.fromBinarySlice exampleAdapter sidecar.bytes = .ok sidecar := by
  have faithful : Faithful exampleAdapter.floatText exampleAdapter.reader.parse := exampleHost_faithful
  obtain ⟨accepts, reads⟩ := (lineage_sidecar_codec faithful).2 (derivedParts ⟨List.replicate 32 7, rfl⟩)
  obtain ⟨sidecar, built⟩ := accepts.2 ⟨derivedParts_linked _, 7, List.mem_replicate.2 ⟨by decide, rfl⟩, by decide⟩
  exact ⟨sidecar, built, (reads sidecar built).1⟩

end

end Legitimacy.CodexExec
