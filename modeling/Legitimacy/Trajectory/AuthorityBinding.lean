import Legitimacy.Trajectory.Authority
import Legitimacy.Trajectory.ReplayRoundTrip

namespace Legitimacy.Trajectory

open ExceptRun Json Serde PrefixCode

section

theorem hexNibble_digit : ∀ nibble < 16, String.utf8EncodeChar (Hex.digit nibble) = [(String.utf8EncodeChar (Hex.digit nibble)).headD 0] ∧
    hexNibble ((String.utf8EncodeChar (Hex.digit nibble)).headD 0) = .ok (.ofNat nibble) := by decide

theorem joined_nibbles : ∀ code < 256, UInt8.ofNat (code / 16) <<< 4 ||| UInt8.ofNat (code % 16) = .ofNat code := by decide +kernel

theorem decodePairs_digits (bytes : List UInt8) : decodePairs ((Hex.digits bytes).flatMap String.utf8EncodeChar) = .ok bytes := by
  induction bytes with
  | nil => rfl
  | cons byte rest ih =>
    have below := byte.toNat_lt
    obtain ⟨highChar, high⟩ := hexNibble_digit (byte.toNat / 16) (by omega)
    obtain ⟨lowChar, low⟩ := hexNibble_digit (byte.toNat % 16) (by omega)
    have joined := joined_nibbles byte.toNat below
    have digits : (Hex.digits (byte :: rest)).flatMap String.utf8EncodeChar =
        String.utf8EncodeChar (Hex.digit (byte.toNat / 16)) ++ (String.utf8EncodeChar (Hex.digit (byte.toNat % 16)) ++
          (Hex.digits rest).flatMap String.utf8EncodeChar) := rfl
    rw [UInt8.ofNat_toNat] at joined
    rw [digits, highChar, lowChar]
    show decodePairs (_ :: _ :: (Hex.digits rest).flatMap String.utf8EncodeChar) = _
    rw [decodePairs, high, low, ih]
    show Except.ok ((UInt8.ofNat (byte.toNat / 16) <<< 4 ||| UInt8.ofNat (byte.toNat % 16)) :: rest) = _
    rw [joined]

theorem decodePrefixedHex_encode {size : Nat} (value : Bytes size) : decodePrefixedHex size (encodePrefixedHex value.bytes) = .ok value := by
  have pairs := decodePairs_digits value.bytes
  have text : Utf8.bytes (Hex.encode value.bytes) = (Hex.digits value.bytes).flatMap String.utf8EncodeChar := by
    rw [Utf8.bytes, Hex.toList_encode]
  have length : (Hex.encode value.bytes).utf8ByteSize = size * 2 := by rw [Hex.utf8ByteSize_encode, value.length_eq, Nat.mul_comm]
  rw [decodePrefixedHex, encodePrefixedHex, stripPrefix_eq_some.2 rfl]
  show (if (Hex.encode value.bytes).utf8ByteSize ≠ size * 2 then _ else (decodePairs (Utf8.bytes (Hex.encode value.bytes))).bind _) = _
  rw [if_neg (not_not.2 length), text, pairs]
  exact dif_pos value.length_eq

end

section

structure AnchorShort (anchor : ReplayAuthorityAnchor) : Prop where
  schema : ReplayBindingValid anchor.schema
  adapter : ReplayBindingValid anchor.adapter
  policy : ReplayBindingValid anchor.policy

theorem ReplayDigest.short (digest : ReplayDigest) : ShortString digest.text :=
  shortString_of_le (isDigest_plain digest.valid).1.le (by decide)

theorem ReplayBindingValid.short {binding : ReplayArtifactBinding} (valid : ReplayBindingValid binding) :
    ShortString binding.identity ∧ ShortString binding.version ∧ ShortString binding.hash.text :=
  ⟨shortString_of_le (isAsciiName_plain valid.1).1 (by decide), shortString_of_le (isAsciiVersion_plain valid.2).1 (by decide),
    binding.hash.short⟩

theorem ReplayDigest.eq_of_text {first second : ReplayDigest} (same : first.text = second.text) : first = second := ReplayDigest.ext same

theorem ReplayArtifactBinding.eq_of_texts {first second : ReplayArtifactBinding} (identity : first.identity = second.identity)
    (version : first.version = second.version) (hash : first.hash.text = second.hash.text) : first = second := by
  cases first
  cases second
  obtain rfl : _ = _ := identity
  obtain rfl : _ = _ := version
  obtain rfl := ReplayDigest.eq_of_text hash
  rfl

instance (value : String) : Decidable (ShortString value) := inferInstanceAs (Decidable (_ < _))

def anchorTexts (anchor : ReplayAuthorityAnchor) : List String :=
  [anchorFormat, anchorVersion, replayFormat, replayVersion, anchor.schema.identity, anchor.schema.version, anchor.schema.hash.text,
    anchor.adapter.identity, anchor.adapter.version, anchor.adapter.hash.text, anchor.policy.identity, anchor.policy.version,
    anchor.policy.hash.text]

theorem anchorTexts_short {anchor : ReplayAuthorityAnchor} (short : AnchorShort anchor) : ∀ text ∈ anchorTexts anchor, ShortString text := by
  obtain ⟨schemaIdentity, schemaVersion, schemaHash⟩ := short.schema.short
  obtain ⟨adapterIdentity, adapterVersion, adapterHash⟩ := short.adapter.short
  obtain ⟨policyIdentity, policyVersion, policyHash⟩ := short.policy.short
  have constants : ShortString anchorFormat ∧ ShortString anchorVersion ∧ ShortString replayFormat ∧ ShortString replayVersion :=
    ⟨by decide, by decide, by decide, by decide⟩
  simp only [anchorTexts, List.forall_mem_cons]
  exact ⟨constants.1, constants.2.1, constants.2.2.1, constants.2.2.2, schemaIdentity, schemaVersion, schemaHash, adapterIdentity,
    adapterVersion, adapterHash, policyIdentity, policyVersion, policyHash, List.forall_mem_nil _⟩

/-- The signed statement determines the anchor. -/
theorem signatureMessage_anchor {issuer algorithm keyId : String} {epoch : UInt64} {first second : ReplayAuthorityAnchor}
    (atFirst : AnchorShort first) (atSecond : AnchorShort second)
    (same : signatureMessage issuer algorithm keyId epoch first = signatureMessage issuer algorithm keyId epoch second) : first = second := by
  simp only [signatureMessage, List.append_assoc, List.append_cancel_left_eq] at same
  obtain ⟨texts, same⟩ := @PrefixFree.flatMap _ _ _ _ putString_free (anchorTexts first) (anchorTexts second) rfl _ _
    (anchorTexts_short atFirst) (anchorTexts_short atSecond) same
  obtain ⟨captured, same⟩ := bigEndian_prefixFree _ _ _ _ trivial trivial same
  obtain ⟨captureDigest, same⟩ := putString_free _ _ _ _ first.rawCapture.digest.short second.rawCapture.digest.short same
  obtain ⟨trajectory, same⟩ := putString_free _ _ _ _ first.trajectoryDigest.short second.trajectoryDigest.short same
  obtain ⟨recordCount, same⟩ := bigEndian_prefixFree _ _ _ _ trivial trivial same
  obtain ⟨genesis, same⟩ := putString_free _ _ _ _ first.genesisHead.short second.genesisHead.short same
  have finalHead := putString_free.injective first.expectedFinalHead.short second.expectedFinalHead.short same
  simp only [anchorTexts, List.cons.injEq, true_and, and_true] at texts
  obtain ⟨schemaIdentity, schemaVersion, schemaHash, adapterIdentity, adapterVersion, adapterHash, policyIdentity, policyVersion,
    policyHash⟩ := texts
  have schema := ReplayArtifactBinding.eq_of_texts schemaIdentity schemaVersion schemaHash
  have adapter := ReplayArtifactBinding.eq_of_texts adapterIdentity adapterVersion adapterHash
  have policy := ReplayArtifactBinding.eq_of_texts policyIdentity policyVersion policyHash
  have digest := ReplayDigest.eq_of_text captureDigest
  have trajectory := ReplayDigest.eq_of_text trajectory
  have genesis := ReplayDigest.eq_of_text genesis
  have finalHead := ReplayDigest.eq_of_text finalHead
  rcases first with ⟨_, _, _, ⟨_, _⟩, _, _, _, _⟩
  rcases second with ⟨_, _, _, ⟨_, _⟩, _, _, _, _⟩
  simp only at schema adapter policy captured digest trajectory recordCount genesis finalHead
  rw [schema, adapter, policy, captured, digest, trajectory, recordCount, genesis, finalHead]

end

section

def trajectoryPreimage (trace : TrajectoryTrace) : List UInt8 :=
  hashEnvelope ++ hashFrame (Utf8.bytes "legitimacy.trajectory.trace.v0") ++ bigEndian 1 ++ [canonicalBytes trace].flatMap hashFrame

theorem trajectoryPreimage_injective {first second : TrajectoryTrace} (same : trajectoryPreimage first = trajectoryPreimage second) :
    canonicalBytes first = canonicalBytes second := by
  simp only [trajectoryPreimage, List.append_cancel_left_eq, List.flatMap_cons, List.flatMap_nil, List.append_nil, hashFrame] at same
  exact (bigEndian_prefixFree _ _ _ _ trivial trivial same).2

theorem trajectoryDigest_preimage {sha256 : List UInt8 → Digest} {first second : TrajectoryTrace}
    (same : trajectoryDigest sha256 first = trajectoryDigest sha256 second) :
    sha256 (trajectoryPreimage first) = sha256 (trajectoryPreimage second) := by
  have hexes := (String.append_right_inj _).1 same
  have bytes := Hex.encode_injective hexes
  exact Digest.eq_of_bytes bytes

end

section

variable {host : Host} {scheme : SignatureScheme}

/-- A trace accepted with a receipt line under a policy: every stage of the way and its result. -/
structure Authorization (policy : ReplayAuthorityTrustPolicy scheme) (validated : ValidatedTrajectoryTrace host) where
  line : List UInt8
  unverified : UnverifiedReplayAuthorityReceipt
  verified : VerifiedReplayAuthorityReceipt
  supplied : InspectedTrajectoryReplayCandidate
  replay : VerifiedTrajectoryReplay
  decoded : UnverifiedReplayAuthorityReceipt.fromJsonSlice host.reader line = .ok unverified
  checked : verifyReplayAuthorityReceipt unverified policy = .ok verified
  accepted : verifyTrajectoryReplay validated supplied verified = .ok replay

/-- The hash function has no collision among these texts. -/
def CollisionFreeOn (sha256 : List UInt8 → Digest) (texts : Set (List UInt8)) : Prop := Set.InjOn sha256 texts

/-- No signature is accepted for two of these messages. -/
def SignatureScheme.SoundOn (scheme : SignatureScheme) (messages : Set (List UInt8)) : Prop :=
  ∀ key signature, ∀ first ∈ messages, ∀ second ∈ messages,
    scheme.verifyStrict key first signature = true → scheme.verifyStrict key second signature = true → first = second

variable {policy : ReplayAuthorityTrustPolicy scheme} {first second validated : ValidatedTrajectoryTrace host}

theorem verifyReplayAuthorityReceipt_ok {unverified : UnverifiedReplayAuthorityReceipt} {verified : VerifiedReplayAuthorityReceipt}
    (run : verifyReplayAuthorityReceipt unverified policy = .ok verified) :
    unverified.receipt.issuer = policy.issuer ∧ unverified.receipt.keyId = policy.keyId ∧
      unverified.receipt.authorityEpoch = policy.acceptedAuthorityEpoch ∧
      scheme.verifyStrict policy.verificationKey unverified.receipt.signatureMessage unverified.signature = true ∧
      verified.receipt = unverified.receipt := by
  obtain ⟨passed, made⟩ := guard_eq_ok.1 run
  obtain rfl := Except.ok.inj made
  simp only [ne_eq, Bool.or_eq_true, decide_eq_true_eq, Bool.not_eq_true', not_or, not_not, Bool.not_eq_false] at passed
  obtain ⟨⟨⟨⟨issuer, -⟩, keyId⟩, epoch⟩, signed⟩ := passed
  exact ⟨issuer, keyId, epoch, signed, rfl⟩

theorem verifyTrajectoryReplay_ok {supplied : InspectedTrajectoryReplayCandidate} {verified : VerifiedReplayAuthorityReceipt}
    {replay : VerifiedTrajectoryReplay} (run : verifyTrajectoryReplay validated supplied verified = .ok replay) :
    ∃ candidate, trajectoryReplayCandidate validated = some candidate ∧ verified.receipt.anchor = .fromReplayCandidate candidate := by
  obtain ⟨candidate, built, run⟩ := bind_eq_ok.1 run
  obtain ⟨-, run⟩ := guard_eq_ok.1 run
  obtain ⟨anchored, -⟩ := guard_eq_ok.1 run
  exact ⟨candidate, elim_eq_ok.1 built, not_not.1 anchored⟩

theorem candidate_digest {candidate : TrajectoryReplayCandidate} (built : trajectoryReplayCandidate validated = some candidate) :
    candidate.trajectoryDigest.text = trajectoryDigest host.sha256 validated.trace := by
  obtain ⟨digest, found, built⟩ := Option.bind_eq_some_iff.1 built
  obtain ⟨schema, -, built⟩ := Option.bind_eq_some_iff.1 built
  obtain ⟨adapter, -, built⟩ := Option.bind_eq_some_iff.1 built
  obtain ⟨policy, -, built⟩ := Option.bind_eq_some_iff.1 built
  obtain ⟨capture, -, built⟩ := Option.bind_eq_some_iff.1 built
  obtain ⟨⟨records, finalHead⟩, -, made⟩ := Option.bind_eq_some_iff.1 built
  obtain rfl := Option.some.inj made
  have shape : isDigest (trajectoryDigest host.sha256 validated.trace) = true := isDigest_framedSha256 _ _ _
  rw [ReplayDigest.fromValidated_eq shape] at found
  obtain rfl := Option.some.inj found
  rfl

theorem CandidateValid.anchor {candidate : TrajectoryReplayCandidate} (valid : CandidateValid candidate) :
    AnchorShort (.fromReplayCandidate candidate) := ⟨valid.schema, valid.adapter, valid.policy⟩

/-- Two traces accepted with one signature are equal. -/
theorem traces_of_one_signature (left : Authorization policy first) (right : Authorization policy second)
    (same : left.unverified.signature = right.unverified.signature)
    (sound : scheme.SoundOn {left.unverified.receipt.signatureMessage, right.unverified.receipt.signatureMessage})
    (free : CollisionFreeOn host.sha256 {trajectoryPreimage first.trace, trajectoryPreimage second.trace}) : first.trace = second.trace := by
  obtain ⟨leftIssuer, leftKey, leftEpoch, leftSigned, leftReceipt⟩ := verifyReplayAuthorityReceipt_ok left.checked
  obtain ⟨rightIssuer, rightKey, rightEpoch, rightSigned, rightReceipt⟩ := verifyReplayAuthorityReceipt_ok right.checked
  obtain ⟨leftCandidate, leftBuilt, leftAnchor⟩ := verifyTrajectoryReplay_ok left.accepted
  obtain ⟨rightCandidate, rightBuilt, rightAnchor⟩ := verifyTrajectoryReplay_ok right.accepted
  obtain ⟨leftMade, leftAgain, leftValid⟩ := candidate_built first
  obtain ⟨rightMade, rightAgain, rightValid⟩ := candidate_built second
  obtain rfl := Option.some.inj (leftBuilt.symm.trans leftAgain)
  obtain rfl := Option.some.inj (rightBuilt.symm.trans rightAgain)
  rw [leftReceipt] at leftAnchor
  rw [rightReceipt] at rightAnchor
  rw [← same] at rightSigned
  have messages := sound policy.verificationKey _ _ (Set.mem_insert _ _) _ (Set.mem_insert_of_mem _ rfl) leftSigned rightSigned
  rw [SignedReplayAuthorityReceipt.signatureMessage, SignedReplayAuthorityReceipt.signatureMessage, leftIssuer, leftKey, leftEpoch, leftAnchor,
    rightIssuer, rightKey, rightEpoch, rightAnchor] at messages
  have anchors := signatureMessage_anchor leftValid.anchor rightValid.anchor messages
  have digests : leftCandidate.trajectoryDigest = rightCandidate.trajectoryDigest :=
    congrArg ReplayAuthorityAnchor.trajectoryDigest anchors
  have texts : trajectoryDigest host.sha256 first.trace = trajectoryDigest host.sha256 second.trace := by
    rw [← candidate_digest leftBuilt, ← candidate_digest rightBuilt, digests]
  have preimages := free (Set.mem_insert _ _) (Set.mem_insert_of_mem _ rfl) (trajectoryDigest_preimage texts)
  exact canonicalBytes_injective first.fits.short second.fits.short (trajectoryPreimage_injective preimages)

end

section

/-- The receipts that the reader accepts. -/
structure ReceiptValid (receipt : SignedReplayAuthorityReceipt) : Prop where
  issuer : validateAuthorityName receipt.issuer = .ok ⟨⟩
  keyId : validateAuthorityName receipt.keyId = .ok ⟨⟩
  epoch : receipt.authorityEpoch ≠ 0
  anchor : AnchorShort receipt.anchor
  counted : receipt.anchor.recordCount ≠ 0 ∧ receipt.anchor.recordCount ≤ .ofNat maxEvents
  captured : receipt.anchor.rawCapture.recordCount = receipt.anchor.recordCount
  signature : ∃ bytes : Bytes 64, receipt.signature = encodePrefixedHex bytes.bytes

theorem authorityName_plain {value : String} (name : validateAuthorityName value = .ok ⟨⟩) : value.utf8ByteSize ≤ 128 ∧ PlainText value := by
  obtain ⟨passed, -⟩ := guard_eq_ok.1 name
  simp only [Bool.or_eq_true, decide_eq_true_eq, Bool.not_eq_true', not_or, not_lt, Bool.not_eq_false] at passed
  refine ⟨passed.1.2, plainText_of_visible fun byte member => ?_⟩
  have either := mem_of_allBytes passed.2 member
  simp only [isVisible, Bool.or_eq_true, beq_iff_eq] at *
  tauto

theorem signature_plain (bytes : Bytes 64) : (encodePrefixedHex bytes.bytes).utf8ByteSize = 136 ∧ PlainText (encodePrefixedHex bytes.bytes) := by
  refine ⟨?_, plainText_of_visible fun byte member => ?_⟩
  · rw [encodePrefixedHex, String.utf8ByteSize_append, Hex.utf8ByteSize_encode, bytes.length_eq]
    rfl
  · rw [encodePrefixedHex, Utf8.bytes_append, List.mem_append] at member
    rcases member with front | inHex
    · exact List.all_eq_true.1 (by decide : (Utf8.bytes "ed25519:").all isVisible = true) byte front
    · exact isVisible_of_isHexByte (List.all_eq_true.1 (isHexByte_digits bytes.bytes) byte inHex)

def ReplayAuthorityAnchor.wire (anchor : ReplayAuthorityAnchor) : ReplayAuthorityAnchorWire where
  anchorFormat := Trajectory.anchorFormat
  anchorVersion := Trajectory.anchorVersion
  replayFormat := Trajectory.replayFormat
  replayVersion := Trajectory.replayVersion
  schema := anchor.schema.wire
  adapter := anchor.adapter.wire
  policy := anchor.policy.wire
  rawCapture := anchor.rawCapture.wire
  trajectoryDigest := anchor.trajectoryDigest.text
  recordCount := anchor.recordCount
  genesisHead := anchor.genesisHead.text
  expectedFinalHead := anchor.expectedFinalHead.text

def SignedReplayAuthorityReceipt.wire (receipt : SignedReplayAuthorityReceipt) : ReplayAuthorityReceiptWire where
  receiptFormat := Trajectory.receiptFormat
  receiptVersion := Trajectory.receiptVersion
  issuer := receipt.issuer
  algorithm := algorithmEd25519
  keyId := receipt.keyId
  authorityEpoch := receipt.authorityEpoch
  anchor := receipt.anchor.wire
  signature := receipt.signature

theorem decodeAnchor_json (anchor : ReplayAuthorityAnchor) : decodeAnchor anchor.json = some anchor.wire := by
  simp [decodeAnchor, ReplayAuthorityAnchor.json, ReplayAuthorityAnchor.wire, ReplayDigest.json, structFields, List.lookup_cons, decodeString]

variable (receipt : SignedReplayAuthorityReceipt)

theorem decodeReceipt_json : decodeReceipt receipt.json = some receipt.wire := by
  have anchor := decodeAnchor_json receipt.anchor
  simp [decodeReceipt, SignedReplayAuthorityReceipt.json, SignedReplayAuthorityReceipt.wire, structFields, List.lookup_cons, decodeString, anchor]

theorem tryIntoAnchor_wire {receipt : SignedReplayAuthorityReceipt} (valid : ReceiptValid receipt) :
    receipt.anchor.wire.tryIntoAnchor = .ok receipt.anchor := by
  have schema := parseBinding_wire valid.anchor.schema
  have adapter := parseBinding_wire valid.anchor.adapter
  have policy := parseBinding_wire valid.anchor.policy
  have bounded : ¬.ofNat maxEvents < receipt.anchor.recordCount := UInt64.not_lt.2 valid.counted.2
  simp only [ReplayAuthorityAnchorWire.tryIntoAnchor, ReplayAuthorityAnchor.wire, parseCapture_wire, schema, adapter, policy,
    ReplayDigest.parse_text, Except.mapError, bind, Except.bind, valid.captured, bounded]
  simp [valid.counted.1]

theorem tryIntoUnverified_wire {receipt : SignedReplayAuthorityReceipt} (valid : ReceiptValid receipt) {bytes : Bytes 64}
    (signature : receipt.signature = encodePrefixedHex bytes.bytes) : receipt.wire.tryIntoUnverified = .ok ⟨receipt, bytes⟩ := by
  have anchor := tryIntoAnchor_wire valid
  have decoded := decodePrefixedHex_encode bytes
  rw [← signature] at decoded
  simp only [ReplayAuthorityReceiptWire.tryIntoUnverified, SignedReplayAuthorityReceipt.wire, valid.issuer, valid.keyId, decoded, anchor,
    bind, Except.bind]
  simp [valid.epoch]

variable {floatText : Float → String}

theorem readable_receipt : Readable 3 receipt.json := by
  have binding (binding : ReplayArtifactBinding) : Readable 1 binding.json := readable_replayBinding binding
  have capture := readable_replayCapture receipt.anchor.rawCapture
  have anchor : Readable 2 receipt.anchor.json :=
    readable_struct ["anchor_format", "anchor_version", "replay_format", "replay_version", "schema", "adapter", "policy", "raw_capture",
      "trajectory_digest", "record_count", "genesis_head", "expected_final_head"] rfl (by decide)
      (by simp [readable_str, readable_u64, ReplayDigest.json, binding, capture])
  exact readable_struct ["receipt_format", "receipt_version", "issuer", "algorithm", "key_id", "authority_epoch", "anchor", "signature"] rfl
    (by decide) (by simp [readable_str, readable_u64, anchor])

theorem receipt_counts : nodeCount receipt.json = 32 ∧ keyCount receipt.json = 31 := by
  constructor
  · simp [SignedReplayAuthorityReceipt.json, ReplayAuthorityAnchor.json, nodeCount, fieldNodes, ReplayArtifactBinding.json,
      ReplayRawCaptureSeal.json, ReplayDigest.json, u64]
  · simp [SignedReplayAuthorityReceipt.json, ReplayAuthorityAnchor.json, keyCount, fieldKeys, ReplayArtifactBinding.json,
      ReplayRawCaptureSeal.json, ReplayDigest.json, u64]

theorem anchor_size_le {anchor : ReplayAuthorityAnchor} (short : AnchorShort anchor) :
    textSize (compactChars floatText anchor.json) ≤ 2000 := by
  have bound := @size_struct_le floatText [("anchor_format", .str anchorFormat), ("anchor_version", .str anchorVersion),
    ("replay_format", .str replayFormat), ("replay_version", .str replayVersion), ("schema", anchor.schema.json),
    ("adapter", anchor.adapter.json), ("policy", anchor.policy.json), ("raw_capture", anchor.rawCapture.json),
    ("trajectory_digest", anchor.trajectoryDigest.json), ("record_count", u64 anchor.recordCount),
    ("genesis_head", anchor.genesisHead.json), ("expected_final_head", anchor.expectedFinalHead.json)]
    ["anchor_format", "anchor_version", "replay_format", "replay_version", "schema", "adapter", "policy", "raw_capture",
      "trajectory_digest", "record_count", "genesis_head", "expected_final_head"] rfl 194 (by decide)
  have schema := @ReplayArtifactBinding.size_le floatText _ short.schema
  have adapter := @ReplayArtifactBinding.size_le floatText _ short.adapter
  have policy := @ReplayArtifactBinding.size_le floatText _ short.policy
  have capture := @ReplayRawCaptureSeal.size_le floatText anchor.rawCapture
  have recordCount := @size_u64_le floatText anchor.recordCount
  have constants : textSize (compactChars floatText (.str anchorFormat)) = 47 ∧ textSize (compactChars floatText (.str anchorVersion)) = 3 ∧
      textSize (compactChars floatText (.str replayFormat)) = 30 ∧ textSize (compactChars floatText (.str replayVersion)) = 3 :=
    ⟨@PlainText.size anchorFormat (by decide) floatText, @PlainText.size anchorVersion (by decide) floatText,
      @PlainText.size replayFormat (by decide) floatText, @PlainText.size replayVersion (by decide) floatText⟩
  simp only [List.map_cons, List.map_nil, List.sum_cons, List.sum_nil, ReplayDigest.size] at bound
  rw [ReplayAuthorityAnchor.json]
  omega

theorem receipt_size {receipt : SignedReplayAuthorityReceipt} (valid : ReceiptValid receipt) :
    (receipt.json.compactBytes floatText).length + 1 < maxTrajectoryReplayAuthorityReceiptBytes := by
  have bound := @size_struct_le floatText [("receipt_format", .str receiptFormat), ("receipt_version", .str receiptVersion),
    ("issuer", .str receipt.issuer), ("algorithm", .str algorithmEd25519), ("key_id", .str receipt.keyId),
    ("authority_epoch", u64 receipt.authorityEpoch), ("anchor", receipt.anchor.json), ("signature", .str receipt.signature)]
    ["receipt_format", "receipt_version", "issuer", "algorithm", "key_id", "authority_epoch", "anchor", "signature"] rfl 114 (by decide)
  obtain ⟨shortIssuer, plainIssuer⟩ := authorityName_plain valid.issuer
  obtain ⟨shortKey, plainKey⟩ := authorityName_plain valid.keyId
  obtain ⟨bytes, signature⟩ := valid.signature
  obtain ⟨signatureSize, plainSignature⟩ := signature_plain bytes
  have anchor := @anchor_size_le floatText _ valid.anchor
  have epoch := @size_u64_le floatText receipt.authorityEpoch
  have constants : textSize (compactChars floatText (.str receiptFormat)) = 48 ∧ textSize (compactChars floatText (.str receiptVersion)) = 3 ∧
      textSize (compactChars floatText (.str algorithmEd25519)) = 9 :=
    ⟨@PlainText.size receiptFormat (by decide) floatText, @PlainText.size receiptVersion (by decide) floatText,
      @PlainText.size algorithmEd25519 (by decide) floatText⟩
  have limit : maxTrajectoryReplayAuthorityReceiptBytes = 65536 := rfl
  rw [← signature] at signatureSize plainSignature
  simp only [List.map_cons, List.map_nil, List.sum_cons, List.sum_nil, plainIssuer.size, plainKey.size, plainSignature.size] at bound
  rw [length_compactBytes, SignedReplayAuthorityReceipt.json]
  omega

theorem receipt_round_trip {reader : JsonReader} (faithful : Faithful floatText reader.parse) {receipt : SignedReplayAuthorityReceipt}
    (valid : ReceiptValid receipt) {bytes : Bytes 64} (signature : receipt.signature = encodePrefixedHex bytes.bytes) :
    ∃ line, receipt.toJsonLine floatText = .ok line ∧ UnverifiedReplayAuthorityReceipt.fromJsonSlice reader line = .ok ⟨receipt, bytes⟩ := by
  have size := @receipt_size floatText receipt valid
  have readable := readable_receipt receipt
  have shallow : receipt.json.nesting ≤ 127 := readable.nesting.trans (by decide)
  have strings := @counts_le_size floatText receipt.json readable.integral
  have within : WithinLimits receiptScanLimits receipt.json := by
    obtain ⟨nodes, keys⟩ := receipt_counts receipt
    rw [length_compactBytes] at size
    refine ⟨Nat.le_trans (Nat.succ_le_succ readable.nesting) (by decide), by rw [nodes]; decide, by rw [keys]; decide, ?_, readable.objects⟩
    show stringBytes receipt.json ≤ maxTrajectoryReplayAuthorityReceiptBytes
    omega
  have read := faithful.exact readable.integral shallow
  have preflight := preflightJsonLine_ok faithful shallow readable.integral size.le within rfl
  refine ⟨receipt.json.compactBytes floatText ++ [10], ?_, ?_⟩
  · rw [SignedReplayAuthorityReceipt.toJsonLine, serializeJsonLine_ok (Nat.lt_of_succ_lt size)]
    rfl
  · rw [UnverifiedReplayAuthorityReceipt.fromJsonSlice, preflight]
    refine bind_eq_ok.2 ⟨_, rfl, bind_eq_ok.2 ⟨receipt.wire, ?_, tryIntoUnverified_wire valid signature⟩⟩
    rw [read, Option.bind_some, decodeReceipt_json]
    rfl

end

section

variable {host : Host} {scheme : SignatureScheme} {validated : ValidatedTrajectoryTrace host} {signingKey : Bytes 32}
  {issuer keyId : String} {authorityEpoch : UInt64} {receipt : SignedReplayAuthorityReceipt}

/-- A policy that pins the issuing key under the names and the epoch of the issue. -/
structure PinnedTo (policy : ReplayAuthorityTrustPolicy scheme) (signingKey : Bytes 32) (issuer keyId : String) (authorityEpoch : UInt64) :
    Prop where
  issuer : policy.issuer = issuer
  algorithm : policy.algorithm = algorithmEd25519
  keyId : policy.keyId = keyId
  epoch : policy.acceptedAuthorityEpoch = authorityEpoch
  verificationKey : scheme.fromBytes (scheme.verifyingKeyBytes signingKey) = some policy.verificationKey

theorem issue_eq_ok (run : issueTrajectoryReplayAuthorityReceipt scheme validated signingKey issuer keyId authorityEpoch = .ok receipt) :
    validateAuthorityName issuer = .ok ⟨⟩ ∧ validateAuthorityName keyId = .ok ⟨⟩ ∧ authorityEpoch ≠ 0 ∧
      ∃ candidate, trajectoryReplayCandidate validated = some candidate ∧
        receipt = ⟨issuer, keyId, authorityEpoch, .fromReplayCandidate candidate, encodePrefixedHex (scheme.sign signingKey
          (signatureMessage issuer algorithmEd25519 keyId authorityEpoch (.fromReplayCandidate candidate))).bytes⟩ := by
  have mapped {check : Except ReplayAuthorityErrorCode Unit} (passed : check.mapError some = .ok ⟨⟩) : check = .ok ⟨⟩ := by
    cases check with
    | error => cases passed
    | ok => rfl
  obtain ⟨⟨⟩, named, run⟩ := bind_eq_ok.1 run
  obtain ⟨⟨⟩, keyed, run⟩ := bind_eq_ok.1 run
  obtain ⟨epoch, run⟩ := guard_eq_ok.1 run
  obtain ⟨candidate, built, made⟩ := bind_eq_ok.1 run
  exact ⟨mapped named, mapped keyed, epoch, candidate, elim_eq_ok.1 built, (Except.ok.inj made).symm⟩

theorem CandidateValid.counted {candidate : TrajectoryReplayCandidate} (valid : CandidateValid candidate) :
    candidate.recordCount ≠ 0 ∧ candidate.recordCount ≤ .ofNat maxEvents := by
  have positive := List.length_pos_iff.2 valid.nonempty
  have bounded : candidate.records.length ≤ 10000 := valid.count
  have code : (UInt64.ofNat candidate.records.length).toNat = candidate.records.length :=
    UInt64.toNat_ofNat_of_lt' (Nat.lt_of_le_of_lt bounded (by decide))
  rw [← valid.recordCount]
  constructor
  · intro zero
    have none : (UInt64.ofNat candidate.records.length).toNat = 0 := congrArg UInt64.toNat zero
    omega
  · rw [UInt64.le_iff_toNat_le, code]
    exact bounded

theorem issued_valid (run : issueTrajectoryReplayAuthorityReceipt scheme validated signingKey issuer keyId authorityEpoch = .ok receipt) :
    ReceiptValid receipt := by
  obtain ⟨named, keyed, epoch, candidate, built, rfl⟩ := issue_eq_ok run
  obtain ⟨made, again, valid⟩ := candidate_built validated
  obtain rfl := Option.some.inj (built.symm.trans again)
  exact ⟨named, keyed, epoch, valid.anchor, valid.counted, valid.captured, _, rfl⟩

theorem issued_authorizes (faithful : Faithful host.floatText host.reader.parse) (correct : scheme.Correct)
    (run : issueTrajectoryReplayAuthorityReceipt scheme validated signingKey issuer keyId authorityEpoch = .ok receipt) :
    ∃ line, receipt.toJsonLine host.floatText = .ok line ∧ ∀ policy : ReplayAuthorityTrustPolicy scheme,
      PinnedTo policy signingKey issuer keyId authorityEpoch → ∃ authorization : Authorization policy validated, authorization.line = line := by
  have valid := issued_valid run
  obtain ⟨-, -, -, candidate, built, shape⟩ := issue_eq_ok run
  have issued : receipt.issuer = issuer := by rw [shape]
  have keyed : receipt.keyId = keyId := by rw [shape]
  have epoch : receipt.authorityEpoch = authorityEpoch := by rw [shape]
  have anchor : receipt.anchor = .fromReplayCandidate candidate := by rw [shape]
  have signature : receipt.signature = encodePrefixedHex (scheme.sign signingKey receipt.signatureMessage).bytes := by
    rw [shape]
    rfl
  obtain ⟨line, written, decoded⟩ := receipt_round_trip faithful valid signature
  refine ⟨line, written, fun policy pinned => ?_⟩
  have signed := correct signingKey policy.verificationKey receipt.signatureMessage pinned.verificationKey
  have checked : verifyReplayAuthorityReceipt ⟨receipt, scheme.sign signingKey receipt.signatureMessage⟩ policy = .ok ⟨receipt⟩ := by
    rw [verifyReplayAuthorityReceipt, pinned.issuer, pinned.algorithm, pinned.keyId, pinned.epoch]
    exact guard_eq_ok.2 ⟨by simp [issued, keyed, epoch, signed], rfl⟩
  have accepted : verifyTrajectoryReplay validated ⟨candidate⟩ ⟨receipt⟩ = .ok ⟨candidate, receipt⟩ := by
    rw [verifyTrajectoryReplay, built]
    exact bind_eq_ok.2 ⟨candidate, rfl, guard_eq_ok.2 ⟨not_not.2 rfl, guard_eq_ok.2 ⟨not_not.2 anchor, rfl⟩⟩⟩
  exact ⟨⟨line, _, _, _, _, decoded, checked, accepted⟩, rfl⟩

end

/-- A receipt authorizes one trace only, and an issued one authorizes the trace that it was issued for. -/
theorem receipt_authorizes_one_trace {host : Host} {scheme : SignatureScheme} :
    (∀ (policy : ReplayAuthorityTrustPolicy scheme) (first second : ValidatedTrajectoryTrace host) (left : Authorization policy first)
      (right : Authorization policy second), left.unverified.signature = right.unverified.signature →
      scheme.SoundOn {left.unverified.receipt.signatureMessage, right.unverified.receipt.signatureMessage} →
      CollisionFreeOn host.sha256 {trajectoryPreimage first.trace, trajectoryPreimage second.trace} → first.trace = second.trace) ∧
    (Faithful host.floatText host.reader.parse → scheme.Correct → ∀ (validated : ValidatedTrajectoryTrace host) (signingKey : Bytes 32)
      (issuer keyId : String) (authorityEpoch : UInt64) (receipt : SignedReplayAuthorityReceipt),
      issueTrajectoryReplayAuthorityReceipt scheme validated signingKey issuer keyId authorityEpoch = .ok receipt →
      ∃ line, receipt.toJsonLine host.floatText = .ok line ∧ ∀ policy : ReplayAuthorityTrustPolicy scheme,
        PinnedTo policy signingKey issuer keyId authorityEpoch →
        ∃ authorization : Authorization policy validated, authorization.line = line) :=
  ⟨fun _ _ _ => traces_of_one_signature, fun faithful correct _ _ _ _ _ _ => issued_authorizes faithful correct⟩

section

/-- A stand-in for signatures, which a key checks by signing again. -/
def exampleScheme : SignatureScheme where
  VerifyingKey := Bytes 32
  verifyingKeyBytes secret := ⟨Sha256.hash secret.bytes, Sha256.length_hash _⟩
  fromBytes := some
  sign secret message := ⟨Sha256.hash (Sha256.hash secret.bytes ++ message) ++ Sha256.hash message, rfl⟩
  verifyStrict key message signature := signature.bytes = Sha256.hash (key.bytes ++ message) ++ Sha256.hash message

theorem exampleScheme_correct : exampleScheme.Correct := by
  intro secret key message made
  obtain rfl := Option.some.inj made
  exact decide_eq_true rfl

def exampleKey : Bytes 32 := ⟨List.replicate 32 7, rfl⟩

def examplePolicy : ReplayAuthorityTrustPolicy exampleScheme :=
  ⟨"issuer", algorithmEd25519, "key", 1, exampleScheme.verifyingKeyBytes exampleKey⟩

theorem receipt_authorizes_one_trace_single : ∃ receipt line,
    issueTrajectoryReplayAuthorityReceipt exampleScheme (singleValidated "run" "event" (by decide) (by decide)) exampleKey "issuer" "key" 1 =
      .ok receipt ∧ receipt.toJsonLine exampleHost.floatText = .ok line ∧
    ∃ authorization : Authorization examplePolicy (singleValidated "run" "event" (by decide) (by decide)), authorization.line = line ∧
      (singleValidated "run" "event" (by decide) (by decide)).trace = singleTrace exampleHost "run" "event" := by
  obtain ⟨candidate, built, -⟩ := candidate_built (singleValidated "run" "event" (by decide) (by decide))
  have named : validateAuthorityName "issuer" = .ok ⟨⟩ := by decide
  have keyed : validateAuthorityName "key" = .ok ⟨⟩ := by decide
  have issued : ∃ receipt, issueTrajectoryReplayAuthorityReceipt exampleScheme (singleValidated "run" "event" (by decide) (by decide)) exampleKey
      "issuer" "key" 1 = .ok receipt := by
    rw [issueTrajectoryReplayAuthorityReceipt, named, keyed, built]
    exact ⟨_, rfl⟩
  obtain ⟨receipt, issued⟩ := issued
  obtain ⟨once, back⟩ := @receipt_authorizes_one_trace exampleHost exampleScheme
  obtain ⟨line, written, accepted⟩ := back exampleHost_faithful exampleScheme_correct _ _ _ _ _ _ issued
  obtain ⟨authorization, same⟩ := accepted examplePolicy ⟨rfl, rfl, rfl, rfl, rfl⟩
  refine ⟨receipt, line, issued, written, authorization, same, ?_⟩
  exact once examplePolicy _ _ authorization authorization rfl
    (fun key signature first inFirst second inSecond _ _ => by simp_all) (fun first inFirst second inSecond _ => by simp_all)

end

end Legitimacy.Trajectory
